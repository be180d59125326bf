import SignOn.Flow
import SignOn.Retry

/-! # Providers

A `Provider` is one way to sign a role on and off. -/

namespace SignOn

/-- One way to sign a role on and off, to tell whether the page shows a session already, and to extend one without a
login, where that can be done. -/
structure Provider where
  name : String
  role : String
  login : Credentials → Attempt SignedOn
  isSessionValid : Plan Bool
  logout : Attempt Unit
  refresh : Option (Plan Bool) := none

namespace Provider

/-- Can a session be extended without a login? -/
def supportsRefresh (p : Provider) : Bool :=
  p.refresh.isSome

/-- Extend the session; false if that cannot be done. -/
def refreshSession (p : Provider) : Plan Bool :=
  p.refresh.getD (return false)

end Provider

end SignOn
