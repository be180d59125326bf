import SignOn.Settings.Basic
import SignOn.Text.Visible
import SignOn.Totp.Engine

/-! # Credentials of roles

The environment holds the user names and passwords of the roles.

* `resolve` looks up the credentials of one role.
* `validate` lists what is missing for several roles, and `formatMissing` says how to supply it. -/

namespace SignOn

/-- A user name and its password. -/
structure Credentials where
  username : String
  password : String
deriving DecidableEq, Repr, Inhabited

/-- Credentials as they may be shown: without the password. -/
def Credentials.shown (c : Credentials) : String :=
  "Credentials \x7b username: " ++ Text.visible c.username
    ++ ", password: " ++ Totp.hiddenSecret ++ " \x7d"

namespace Credentials

/-- The credentials made of two values, or the variables that have none. -/
def ofValues (role : String) (vars : CredentialVars) :
    Option String → Option String → Except CredentialError Credentials
  | some username, some password => .ok ⟨username, password⟩
  | some _, none => .error (.missing role [vars.password])
  | none, some _ => .error (.missing role [vars.username])
  | none, none => .error (.missing role [vars.username, vars.password])

/-- Look up the credentials of a role. -/
def resolve (s : Settings) (logger : Logger) (role : String) :
    Plan (Except CredentialError Credentials) := do
  match s.role role with
  | .error e => return .error e
  | .ok r =>
    let username ← Plan.nonBlankEnv r.credentials.username
    let password ← Plan.nonBlankEnv r.credentials.password
    match ofValues role r.credentials username password with
    | .error e => return .error e
    | .ok c =>
      logger.info ("resolved credentials for role '" ++ role ++ "': username=" ++ c.username
        ++ " password=" ++ logger.mask c.password)
      return .ok c

end Credentials

/-- What is missing. -/
inductive MissingKind where
  | unknownRole
  | username
  | password
deriving DecidableEq, Repr, Inhabited

/-- Something missing for a role, and the variable to set; unknown roles have none. -/
structure MissingCredential where
  role : String
  kind : MissingKind
  envVar : Option String
deriving DecidableEq, Repr, Inhabited

namespace MissingCredential

/-- What is missing for one variable. -/
def ofVar (role : String) (kind : MissingKind) (name : String) : Plan (List MissingCredential) := do
  match ← Plan.nonBlankEnv name with
  | some _ => return []
  | none => return [⟨role, kind, some name⟩]

/-- What is missing for one role. -/
def ofRole (s : Settings) (role : String) : Plan (List MissingCredential) :=
  match s.role role with
  | .error _ => return [⟨role, .unknownRole, none⟩]
  | .ok r => do
    let a ← ofVar role .username r.credentials.username
    let b ← ofVar role .password r.credentials.password
    return a ++ b

/-- What is missing for several roles, in their order. -/
def ofRoles (s : Settings) : List String → Plan (List MissingCredential)
  | [] => return []
  | role :: rest => do
    let a ← ofRole s role
    let b ← ofRoles s rest
    return a ++ b

/-- The line that tells how to supply what is missing. -/
def line (m : MissingCredential) : String :=
  match m.kind, m.envVar with
  | .username, some v => "    export " ++ v ++ "=\"<username>\"\n"
  | .password, some v => "    export " ++ v ++ "=\"<password>\"\n"
  | _, _ => "    role is not defined in the auth configuration\n"

end MissingCredential

/-- List what is missing for several roles. -/
def Credentials.validate (s : Settings) (logger : Logger) (roles : List String) :
    Plan (List MissingCredential) := do
  let issues ← MissingCredential.ofRoles s roles
  if issues ≠ [] then
    logger.warn (toString issues.length ++ " credential issue(s) found")
  return issues

/-- Add an issue behind those of its role; roles stay in ascending order, each of them once. -/
def MissingCredential.enter (m : MissingCredential) :
    List (String × List MissingCredential) → List (String × List MissingCredential)
  | [] => [(m.role, [m])]
  | (role, ms) :: groups =>
    if m.role < role then (m.role, [m]) :: (role, ms) :: groups
    else if m.role = role then (role, ms ++ [m]) :: groups
    else (role, ms) :: m.enter groups

/-- Issues by role, the roles in ascending order. -/
def byRole (issues : List MissingCredential) : List (String × List MissingCredential) :=
  issues.foldl (fun groups m => m.enter groups) []

/-- How to supply what is missing, by role. -/
def formatMissing (issues : List MissingCredential) : String :=
  if issues = [] then "All role credentials are set."
  else
    let groups := byRole issues
    "Missing credentials for " ++ toString groups.length ++ " role(s):\n"
      ++ String.join (groups.map fun group =>
        "\n  " ++ group.1 ++ ":\n" ++ String.join (group.2.map MissingCredential.line))

end SignOn
