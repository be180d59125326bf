import SignOn.Provider.Build
import SignOn.Store.Basic

/-! # Sessions of roles

A `Manager` hands out the path of a valid session for a role, and signs on only if there is none.
Calls for one role exclude each other.

* `ensure` reuses, takes over or makes a session.
* `finish` signs off and drops the session. -/

namespace SignOn

/-- Why there is no session. -/
inductive SessionError where
  | auth (e : AuthError)
  | storage (e : StorageError)
  | config (i : Inconsistency)
deriving DecidableEq, Repr

/-- Hands out sessions, through `providers` in place of those of the settings.  Logs call it by the name of the
component. -/
structure Manager where
  settings : Settings
  env : Option String := none
  registry : Idp.Registry := {}
  providers : List Provider := []
  component : String := "session"

namespace Manager

def logger (m : Manager) : Logger :=
  { component := m.component, masks := m.settings.maskPasswords }

def store (m : Manager) : Store :=
  { settings := m.settings.store, logger := m.logger.child "storage" : Store }.withEnv m.env

/-- Look up the credentials of a role. -/
def resolve (m : Manager) (role : String) : Plan (Except CredentialError Credentials) :=
  Credentials.resolve m.settings (m.logger.child "credentials") role

def provider (m : Manager) (role : String) : Except Inconsistency Provider :=
  match m.providers.find? (·.role = role) with
  | some p => .ok p
  | none => Provider.ofSettings m.settings role m.registry (m.logger.child "provider")

/-- Do something while no other call for the role is under way. -/
def exclusively {α : Type} (role : String) (p : Plan α) : Plan α := do
  Plan.request (.acquire role)
  let a ← p
  Plan.request (.release role)
  return a

/-- Save what the page holds as the session of a role. -/
def save (m : Manager) (role : String) : Plan (Except SessionError String) :=
  return (← m.store.save role).mapError .storage

/-- Make a session through a provider, unless the page shows one already. -/
def renew (m : Manager) (role : String) (p : Provider) (c : Credentials) :
    Plan (Except SessionError String) := do
  if ← p.isSessionValid then
    m.logger.info ("page is already authenticated for role '" ++ role ++ "', saving")
    m.save role
  else
    match ← (p.login c).run with
    | .error e => return .error (.auth e)
    | .ok r =>
      m.logger.info ("role '" ++ role ++ "' logged in via " ++ p.name ++ " in "
        ++ toString r.duration ++ "ms")
      m.save role

/-- The path of a valid session of a role, made if there is none. -/
def ensureAlone (m : Manager) (role : String) : Plan (Except SessionError String) := do
  match ← m.store.load role with
  | some path =>
    m.logger.info ("role '" ++ role ++ "' reuses " ++ path)
    return .ok path
  | none =>
    match ← m.resolve role with
    | .error e => return .error (.auth (.ofCredential e))
    | .ok c =>
      match m.provider role with
      | .error i => return .error (.config i)
      | .ok p => m.renew role p c

/-- The path of a valid session of a role, made if there is none. -/
def ensure (m : Manager) (role : String) : Plan (Except SessionError String) :=
  exclusively role (m.ensureAlone role)

/-- Sign a role off and drop its session. -/
def finishAlone (m : Manager) (role : String) : Plan (Except SessionError Unit) := do
  match m.provider role with
  | .error i => return .error (.config i)
  | .ok p =>
    match ← p.logout.run with
    | .error e => return .error (.auth e)
    | .ok _ =>
      match ← m.store.clearRole role with
      | .error e => return .error (.storage e)
      | .ok _ => return .ok ()

/-- Sign a role off and drop its session. -/
def finish (m : Manager) (role : String) : Plan (Except SessionError Unit) :=
  exclusively role (m.finishAlone role)

end Manager

end SignOn
