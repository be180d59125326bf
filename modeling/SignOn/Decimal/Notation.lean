import SignOn.Decimal.Shortest
import SignOn.Text.Search

/-! # Written form of a double

* `text` writes the shortest decimal of a double: positional from `0.0001` up to sixteen digits
  before the point, with a signed exponent of two digits or more otherwise, and always with a
  point or an exponent.
* `hexBits` writes the bits themselves. -/

namespace SignOn.Decimal

def zeros (n : Nat) : String :=
  String.ofList (List.replicate n '0')

/-- The digits with a point after the first `n`, for `0 < n < digits.length`. -/
def pointAfter (digits : String) (n : Nat) : String :=
  String.ofList (digits.toList.take n) ++ "." ++ String.ofList (digits.toList.drop n)

/-- Digits without exponent, the point after position `point` (which may lie outside of them). -/
def positional (digits : String) (point : Int) : String :=
  if point ≤ 0 then "0." ++ zeros point.natAbs ++ digits
  else if digits.length ≤ point.toNat then digits ++ zeros (point.toNat - digits.length) ++ ".0"
  else pointAfter digits point.toNat

/-- One digit, point, the other digits, and the exponent. -/
def withExponent (digits : String) (exponent : Int) : String :=
  (if digits.length = 1 then digits else pointAfter digits 1) ++ "e"
    ++ (if exponent < 0 then "-" else "+") ++ Text.padNat 2 exponent.natAbs

/-- The written form of a double. -/
def text (bits : UInt64) : String :=
  match ofBits bits with
  | none => "null"
  | some ⟨negative, none⟩ => if negative then "-0.0" else "0.0"
  | some ⟨negative, some b⟩ =>
    let s := b.shortest
    let digits := toString s.digits
    let exponent := s.exponent + digits.length - 1
    (if negative then "-" else "") ++
      if -4 ≤ exponent ∧ exponent ≤ 15 then positional digits (exponent + 1)
      else withExponent digits exponent

def hexBits (bits : UInt64) : String :=
  let digits := Nat.toDigits 16 bits.toNat
  String.ofList (List.replicate (16 - digits.length) '0' ++ digits)

end SignOn.Decimal
