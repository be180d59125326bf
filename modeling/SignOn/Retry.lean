import SignOn.Attempt
import SignOn.Decimal.Parts

/-! # Trying again

Passing failures of a login are met by trying again after a delay that grows from attempt to
attempt.

* `RetryPolicy.delay` is the wait behind an attempt.
* `withRetry` makes attempts until one succeeds, one fails for good, or there are no more. -/

namespace SignOn

namespace RetryPolicy

/-- The smaller of two doubles; one that is no number does not count. -/
def lesser (x y : Float) : Float :=
  if x.isNaN then y else if y.isNaN then x else if x < y then x else y

/-- The larger of two doubles; one that is no number does not count. -/
def greater (x y : Float) : Float :=
  if x.isNaN then y else if y.isNaN then x else if y < x then x else y

/-- Milliseconds to wait behind an attempt, counted from 0: the initial delay times a power of the
multiplier, within zero and the largest delay. -/
def delay (p : RetryPolicy) (attempt : Nat) : Nat :=
  let raw := p.initialDelay.toUInt64.toFloat
    * Decimal.power p.multiplier (min attempt 0x7FFFFFFF)
  (greater (lesser raw p.maxDelay.toUInt64.toFloat) 0).toUInt64.toNat

/-- How many attempts there are. -/
def maxAttempts (p : RetryPolicy) : Nat :=
  min (p.maxRetries + 1) 0xFFFFFFFF

end RetryPolicy

/-- The failure of the last of several attempts. -/
def AuthError.afterAttempts (e : AuthError) (role : String) (attempts : Nat) : AuthError :=
  { e.withDefaultRemediation role with
    message := "login failed after " ++ toString attempts ++ " attempts: " ++ e.message
    role }

/-- Make attempts from number `current` on; `left` are left, this one included. -/
def retryFrom {α : Type} (p : RetryPolicy) (role : String) (logger : Logger)
    (attempt : Nat → Attempt α) : (left current : Nat) → Plan (Except AuthError α)
  | 0, current => (attempt current).run
  | left + 1, current => do
    match ← (attempt current).run with
    | .ok a => return .ok a
    | .error e =>
      if ¬ e.isRetryable then
        logger.error ("role '" ++ role ++ "' failed during " ++ e.phase.name
          ++ " (not retryable): " ++ e.message)
        return .error (e.withDefaultRemediation role)
      let attempts := toString p.maxAttempts
      if left = 0 then
        logger.error ("role '" ++ role ++ "' failed after " ++ attempts
          ++ " attempts, last phase " ++ e.phase.name)
        return .error (e.afterAttempts role p.maxAttempts)
      let delay := p.delay current
      logger.warn ("attempt " ++ toString (current + 1) ++ "/" ++ attempts ++ " for role '" ++ role
        ++ "' failed during " ++ e.phase.name ++ ": " ++ e.message ++ "; retrying in "
        ++ toString delay ++ "ms")
      Plan.sleep delay
      retryFrom p role logger attempt left (current + 1)

/-- Make attempts until one succeeds, one fails for good, or there are no more. -/
def withRetry {α : Type} (p : RetryPolicy) (role : String) (logger : Logger)
    (attempt : Nat → Attempt α) : Attempt α :=
  ExceptT.mk (retryFrom p role logger attempt p.maxAttempts 0)

end SignOn
