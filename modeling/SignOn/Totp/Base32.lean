/-! # Base 32

The letters A to Z and the digits 2 to 7 stand for five bits each.  A text need not fill whole
bytes: bits that are left over at its end are dropped. -/

namespace SignOn.Base32

/-- The five bits of a character. -/
def value? (c : Char) : Option Nat :=
  let n := c.toUpper.toNat
  if 65 ≤ n ∧ n ≤ 90 then some (n - 65)
  else if 50 ≤ n ∧ n ≤ 55 then some (n - 50 + 26)
  else none

/-- The bytes of a sequence of groups of five bits; `have_` bits of `acc` are still to be given
out. -/
def bytesFrom : (have_ acc : Nat) → List Nat → List UInt8
  | _, _, [] => []
  | have_, acc, v :: vs =>
    let acc := acc * 32 + v
    if have_ + 5 ≥ 8 then
      let left := have_ + 5 - 8
      (acc >>> left).toUInt8 :: bytesFrom left (acc % (1 <<< left)) vs
    else
      bytesFrom (have_ + 5) acc vs

/-- Decode a text; `none` if a character stands for no bits. -/
def decode? (s : String) : Option (List UInt8) :=
  (s.toList.mapM value?).map (bytesFrom 0 0)

end SignOn.Base32
