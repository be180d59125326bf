import SignOn.Plan

/-! # Attempts

An `Attempt` is a plan that may fail with an `AuthError`. -/

namespace SignOn

/-- A plan that may fail on the way of a login. -/
abbrev Attempt (α : Type) := ExceptT AuthError Plan α

namespace Attempt

def of {α : Type} (p : Plan α) : Attempt α :=
  ExceptT.lift p

/-- Call the page; its failure is one of the role in a phase. -/
def page (role : String) (phase : AuthPhase) (c : PageCall) : Attempt c.Value :=
  ExceptT.mk do
    match ← Plan.page c with
    | .ok v => return .ok v
    | .error e => return .error (.ofPage role phase e)

def log (l : Logger) (level : Level) (message : String) : Attempt Unit :=
  of (l.write level message)

def ofExcept {α : Type} (r : Except AuthError α) : Attempt α :=
  ExceptT.mk (return r)

end Attempt

end SignOn
