import SignOn.Plan
import SignOn.Text.Blank
import SignOn.Totp.Code

/-! # One-time codes now

Codes for the current time of the wall clock, and the wait for a window that lasts long enough. -/

namespace SignOn

/-- A variable of the environment, unless it is blank. -/
def Plan.nonBlankEnv (name : String) : Plan (Option String) :=
  return (← Plan.env name).filter fun v => !Text.isAllBlank v

namespace Totp

/-- Makes codes for windows of a length. -/
structure Engine where
  step : Nat := defaultStep
  logger : Logger := { component := "totp" }
deriving DecidableEq, Repr, Inhabited

/-- Milliseconds behind the start of a window before its code is used. -/
def margin : Nat := 100

/-- Milliseconds since 1970, which a clock before that time does not have. -/
def sinceEpoch (wall : Int) : Except MfaError Nat :=
  if wall < 0 then .error (.clock "second time provided was later than self") else .ok wall.toNat

namespace Engine

/-- An engine for windows of `step` seconds, at least one. -/
def withStep (e : Engine) (step : Nat) : Engine :=
  { e with step := max step 1 }

def generate (e : Engine) (secret : String) : Plan (Except MfaError String) := do
  match sinceEpoch (← Plan.wallClock) with
  | .error err => return .error err
  | .ok ms => return codeAt e.step secret (ms / 1000)

def verify (e : Engine) (code secret : String) : Plan Bool := do
  match sinceEpoch (← Plan.wallClock) with
  | .error _ => return false
  | .ok ms => return accepts e.step secret code (ms / 1000)

/-- Seconds up to the next window. -/
def secondsLeft (e : Engine) : Plan Nat := do
  match sinceEpoch (← Plan.wallClock) with
  | .error _ => return e.step
  | .ok ms => return Totp.secondsLeft (ms / 1000) e.step

/-- Milliseconds up to the next window. -/
def millisLeft (e : Engine) : Plan Nat := do
  match sinceEpoch (← Plan.wallClock) with
  | .error _ => return min (e.step * 1000) maxNat64
  | .ok ms => return Totp.millisLeft ms e.step

/-- Wait for the next window if the current one lasts less than `threshold` seconds; was there a
wait? -/
def waitForFresh (e : Engine) (threshold : Nat) : Plan Bool := do
  let left ← e.millisLeft
  if left ≥ min (threshold * 1000) maxNat64 then
    return false
  e.logger.debug
    ("only " ++ toString left ++ "ms left in TOTP window, waiting for the next one")
  Plan.sleep (left + margin)
  return true

end Engine

/-- What is shown in place of a secret. -/
def hiddenSecret : String :=
  "SecretBox<str>([REDACTED])"

/-- The secret in a variable of the environment. -/
def secretFromEnv (envVar : String) : Plan (Except MfaError String) := do
  match ← Plan.nonBlankEnv envVar with
  | some secret => return .ok secret
  | none => return .error (.secretMissing envVar)

end Totp

end SignOn
