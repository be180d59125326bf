import SignOn.Provider.Basic

/-! # Signing on in a way of the application's own -/

namespace SignOn

/-- A way to sign on and off that the application supplies. -/
structure CustomFlow where
  name : String
  login : Credentials → Attempt Unit
  isSessionValid : Plan Bool
  logout : Attempt Unit

namespace Provider

/-- One login; its failure is reported for the role. -/
def customAttempt (f : CustomFlow) (role : String) (logger : Logger) (c : Credentials) :
    Attempt SignedOn :=
  ExceptT.mk do
    let start ← Plan.clock
    logger.debug ("running custom flow '" ++ f.name ++ "' for role '" ++ role ++ "'")
    match ← (f.login c).run with
    | .error e => return .error { e with role }
    | .ok _ => return .ok (← SignedOn.since start)

/-- A custom flow with retries and logs around it. -/
def custom (f : CustomFlow) (role : String) (retry : RetryPolicy) (logger : Logger) :
    Provider where
  name := f.name
  role := role
  login c := do
    let r ← withRetry retry role logger fun _ => customAttempt f role logger c
    Attempt.of (logger.info ("custom flow '" ++ f.name ++ "' logged in role '" ++ role ++ "' in "
      ++ toString r.duration ++ "ms"))
    return r
  isSessionValid := f.isSessionValid
  logout := do
    Attempt.of (logger.info ("logging out role '" ++ role ++ "' via '" ++ f.name ++ "'"))
    f.logout

end Provider

end SignOn
