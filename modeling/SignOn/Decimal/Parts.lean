/-! # Doubles from a significand and a power of ten

A decimal `significand · 10 ^ exponent` is turned into a double by converting the significand and
then multiplying or dividing once by a power of ten.  Each of these steps rounds, so the result
can lie next to the nearest double. -/

namespace SignOn.Decimal

/-- The double nearest to `10 ^ n`, for `n ≤ 308`. -/
def tenPower (n : Nat) : Float :=
  Float.ofScientific 1 false n

/-- Bring a very negative exponent into range by dividing by `10 ^ 308`, at most `steps` times. -/
def scaleDown : (steps : Nat) → Float → Int → Float × Int
  | 0, x, e => (x, e)
  | steps + 1, x, e =>
    if -308 ≤ e ∨ x == 0 then (x, e) else scaleDown steps (x / tenPower 308) (e + 308)

/-- The double for `significand · 10 ^ exponent`; `none` if it is beyond every double. -/
def ofParts (significand : UInt64) (exponent : Int) : Option Float :=
  let x := significand.toFloat
  if exponent < 0 then
    let (y, e) := scaleDown 4 x exponent
    if y == 0 then some y else some (y / tenPower e.natAbs)
  else if exponent ≤ 308 then
    let y := x * tenPower exponent.natAbs
    if y.isInf then none else some y
  else if x == 0 then some x
  else none

/-- `base ^ n` by repeated squaring. -/
def power (base : Float) (n : Nat) : Float :=
  go base n 1
where
  go (x : Float) (n : Nat) (acc : Float) : Float :=
    if n = 0 then acc
    else if n = 1 then acc * x
    else go (x * x) (n / 2) (if n % 2 = 1 then acc * x else acc)
  termination_by n

end SignOn.Decimal
