/-! # Bytes as characters

A file need not hold text.  A `Symbol` is a character, or a byte that belongs to none; a text is
read from the list of its symbols. -/

namespace SignOn.Text

/-- A character, or (`none`) a byte that is part of no character. -/
abbrev Symbol := Option Char

def symbols (s : String) : List Symbol :=
  s.toList.map some

/-- A continuation byte's six bits. -/
def tailBits (b : UInt8) : Option Nat :=
  if b.toNat / 64 = 2 then some (b.toNat % 64) else none

/-- The code point of a sequence of bytes if the sequence is its shortest form and the code point
is no half of a surrogate pair. -/
def sequenceChar (low n : Nat) : Option Char :=
  if low ≤ n ∧ n.isValidChar then some (Char.ofNat n) else none

/-- The symbols of bytes read as UTF-8. -/
def symbolsOfBytes : List UInt8 → List Symbol
  | [] => []
  | a :: rest =>
    let n := a.toNat
    if n < 0x80 then some (Char.ofNat n) :: symbolsOfBytes rest
    else
      match rest with
      | b :: c :: d :: rest' =>
        match two n b, three n b c, four n b c d with
        | some ch, _, _ => some ch :: symbolsOfBytes (c :: d :: rest')
        | _, some ch, _ => some ch :: symbolsOfBytes (d :: rest')
        | _, _, some ch => some ch :: symbolsOfBytes rest'
        | _, _, _ => none :: symbolsOfBytes (b :: c :: d :: rest')
      | [b, c] =>
        match two n b, three n b c with
        | some ch, _ => some ch :: symbolsOfBytes [c]
        | _, some ch => [some ch]
        | _, _ => none :: symbolsOfBytes [b, c]
      | [b] =>
        match two n b with
        | some ch => [some ch]
        | none => none :: symbolsOfBytes [b]
      | [] => [none]
where
  two (n : Nat) (b : UInt8) : Option Char := do
    guard (n / 32 = 6)
    sequenceChar 0x80 (n % 32 * 64 + (← tailBits b))
  three (n : Nat) (b c : UInt8) : Option Char := do
    guard (n / 16 = 14)
    sequenceChar 0x800 ((n % 16 * 64 + (← tailBits b)) * 64 + (← tailBits c))
  four (n : Nat) (b c d : UInt8) : Option Char := do
    guard (n / 8 = 30)
    sequenceChar 0x10000
      (((n % 8 * 64 + (← tailBits b)) * 64 + (← tailBits c)) * 64 + (← tailBits d))

/-- The number of bytes that a symbol takes. -/
def symbolSize : Symbol → Nat
  | none => 1
  | some c => c.utf8Size

/-- The text of symbols, if all of them are characters. -/
def ofSymbols? (ss : List Symbol) : Option String :=
  (ss.mapM id).map String.ofList

end SignOn.Text
