/-! # The shortest decimal of a double

A finite double is `m · 2 ^ q`.  The reals that round to it form an interval around it, with
its ends included exactly when `m` is even.  `Binary.shortest` finds the decimal with the fewest
digits in that interval, and of those the nearest, by exact arithmetic on natural numbers: for
one digit, two digits and so on it tests the two neighbours of the value on that decimal grid. -/

namespace SignOn.Decimal

/-- A positive finite double `m · 2 ^ q`.  It is `narrowBelow` if the next smaller double is only half as far away as
the next larger one. -/
structure Binary where
  m : Nat
  q : Int
  narrowBelow : Bool
deriving DecidableEq, Repr

/-- A positive decimal `digits · 10 ^ exponent`. -/
structure Scientific where
  digits : Nat
  exponent : Int
deriving DecidableEq, Repr

/-- The number of decimal digits of `n`. -/
def digitCount (n : Nat) : Nat :=
  (Nat.toDigits 10 n).length

/-- The exponent of the leading decimal digit of `num / den`. -/
def leadingExponent (num den : Nat) : Int :=
  let j : Int := digitCount den - digitCount num
  let reached :=
    if j < 0 then num ≥ den * Nat.pow 10 j.natAbs else num * Nat.pow 10 j.natAbs ≥ den
  if reached then -j else -j - 1

/-- Scale by a power of ten: the pair of factors for numerator and denominator. -/
def tenFactors (e : Int) : Nat × Nat :=
  if e < 0 then (Nat.pow 10 e.natAbs, 1) else (1, Nat.pow 10 e.natAbs)

/-- The decimal of `n` digits nearest to the value among those that round to it, if there is
one. -/
def Binary.onGrid (b : Binary) (lead : Int) (n : Nat) : Option Scientific :=
  let (up, down) : Nat × Nat := if b.q < 0 then (1, 1 <<< b.q.natAbs) else (1 <<< b.q.natAbs, 1)
  let e := lead - (n : Int) + 1
  let (f, g) := tenFactors e
  let den := 4 * down * g
  let value := 4 * b.m * up * f
  let low := (4 * b.m - (if b.narrowBelow then 1 else 2)) * up * f
  let high := (4 * b.m + 2) * up * f
  let isIn (d : Nat) : Bool :=
    if b.m % 2 = 0 then low ≤ d * den ∧ d * den ≤ high else low < d * den ∧ d * den < high
  let d := value / den
  let below := isIn d
  let above := isIn (d + 1)
  let rest := value - d * den
  if below && (!above || 2 * rest < den || (2 * rest = den && d % 2 = 0)) then some ⟨d, e⟩
  else if above then some ⟨d + 1, e⟩
  else none

/-- The first grid, from `n` digits on, that has a decimal which rounds to the value. -/
def Binary.shortestFrom (b : Binary) (lead : Int) : (steps n : Nat) → Scientific
  | 0, _ => ⟨b.m, b.q⟩
  | steps + 1, n =>
    match b.onGrid lead n with
    | some s => s
    | none => b.shortestFrom lead steps (n + 1)

/-- Drop trailing zeros of the digits. -/
def Scientific.normalise (s : Scientific) : Scientific :=
  go (digitCount s.digits) s
where
  go : Nat → Scientific → Scientific
    | 0, s => s
    | n + 1, s =>
      if s.digits ≠ 0 ∧ s.digits % 10 = 0 then go n ⟨s.digits / 10, s.exponent + 1⟩ else s

/-- The shortest decimal that rounds to the value; seventeen digits always suffice. -/
def Binary.shortest (b : Binary) : Scientific :=
  let num := 4 * b.m * (if b.q < 0 then 1 else 1 <<< b.q.natAbs)
  let den := 4 * (if b.q < 0 then 1 <<< b.q.natAbs else 1)
  (b.shortestFrom (leadingExponent num den) 18 1).normalise

/-- A double as sign and magnitude, and no magnitude for zero; `none` for infinities and what is not a number. -/
structure Signed where
  negative : Bool
  magnitude : Option Binary
deriving DecidableEq, Repr

def ofBits (bits : UInt64) : Option Signed :=
  let n : Nat := bits.toNat
  let negative := n >>> 63 = 1
  let field : Nat := n >>> 52 % 0x800
  let fraction : Nat := n % 0x10000000000000
  if field = 2047 then none
  else if field = 0 then
    some ⟨negative, if fraction = 0 then none else some ⟨fraction, -1074, false⟩⟩
  else
    some ⟨negative, some ⟨0x10000000000000 + fraction, (field : Int) - 1075, fraction = 0 ∧ field > 1⟩⟩

end SignOn.Decimal
