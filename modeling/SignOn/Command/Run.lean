import SignOn.Command.Arguments
import SignOn.Manager
import SignOn.Text.Timestamp

/-! # Actions of the command line

Each action is a plan that prints its result, or fails. -/

namespace SignOn.Command

/-- Why an action failed; with the path of the settings if they could not be loaded. -/
inductive Failure where
  | load (path : String) (e : ConfigError)
  | message (m : String)
  | credential (e : CredentialError)
  | storage (e : StorageError)
  | mfa (e : MfaError)
  | config (i : Inconsistency)
deriving DecidableEq, Repr

/-- The wording of a failure to load settings. -/
def configText (e : ConfigError) : String :=
  e.heading ++
    match e with
    | .read _ cause => ": " ++ cause.message
    | .parse (.mismatch m) => ": " ++ m.message
    | .parse (.fault .malformed) => ": malformed text"
    | .parse (.fault .truncated) => ": truncated text"
    | .invalid i => ": " ++ i.message

/-- The wording of a failure, then that of its cause if it has one. -/
def Failure.texts : Failure → List String
  | .load path e => ["failed to load " ++ path, configText e]
  | .message m => [m]
  | .credential e => [e.message]
  | .storage e => [e.text]
  | .mfa e => [e.message]
  | .config i => [configText (.invalid i)]

/-- A part of an action, which may fail. -/
abbrev Job (α : Type) := ExceptT Failure Plan α

def Job.of {α : Type} (p : Plan α) : Job α :=
  ExceptT.lift p

/-- A plan that may fail as part of an action. -/
def Job.try_ {ε α : Type} (f : ε → Failure) (p : Plan (Except ε α)) : Job α :=
  ExceptT.mk do return (← p).mapError f

def say (line : String) : Job Unit :=
  Job.of (Plan.print line)

/-- Note a line in the log; actions belong to no component. -/
def note (level : Level) (message : String) : Job Unit :=
  Job.of (Plan.request (.log level "" message))

def loadSettings (path : String) : Plan (Except ConfigError Settings) := do
  match ← Plan.file (.read path) with
  | .error e => return .error (.read path e)
  | .ok content =>
    match Files.Content.text? content with
    | some text => return Settings.ofText text
    | none => return .error (.read path .notText)

def loggerOf (s : Settings) (component : String) : Logger :=
  { component, masks := s.maskPasswords }

/-- The store that the settings speak of. -/
def storeOf (s : Settings) (env : Option String) : Store :=
  { settings := s.store, logger := loggerOf s "storage" : Store }.withEnv env

/-- A text with blanks behind it up to a width. -/
def padded (width : Nat) (s : String) : String :=
  s ++ String.ofList (List.replicate (width - s.length) ' ')

/-- The line of a stored session. -/
def storedLine (e : Store.Stored) : String :=
  padded 20 e.role ++ " " ++ padded 8 (if e.isValid then "valid" else "expired") ++ " "
    ++ Timestamp.text " " e.createdAt ++ " UTC  " ++ e.path

/-- Are the credentials of roles set? -/
def check (s : Settings) (roles : List String) : Job Unit := do
  let roles := if roles = [] then s.roleNames else roles
  let issues ← Job.of (Credentials.validate s (loggerOf s "credentials") roles)
  say (formatMissing issues)
  if issues = [] then
    note .info ("credentials present for " ++ toString roles.length ++ " role(s)")
  else
    throw (.message (toString issues.length ++ " credential issue(s) found"))

def list (store : Store) : Job Unit := do
  let entries ← Job.of store.list
  note .debug (toString entries.length ++ " storage state file(s) in " ++ store.directory)
  if entries.isEmpty then
    say ("No stored sessions in " ++ store.directory)
  else
    entries.forM fun e => say (storedLine e)

/-- Show the stored session of a role. -/
def status (s : Settings) (store : Store) (role : String) : Job Unit := do
  if let .error e := s.role role then
    throw (.credential e)
  match ← Job.of (store.read role) with
  | .ok session =>
    let valid ← Job.of (store.isValid role)
    say ("role:     " ++ role)
    say ("path:     " ++ store.path role)
    say ("valid:    " ++ toString valid)
    say ("cookies:  " ++ toString session.cookies.toList.length)
    say ("origins:  " ++ toString session.origins.toList.length)
  | .error e =>
    if e.cause = .missing then
      say ("No stored session for role '" ++ role ++ "' (" ++ store.path role ++ ")")
    else
      throw (.storage e)

/-- Take away the stored session of a role, or all of them. -/
def clear (store : Store) (role : Option String) : Job Unit := do
  let n ← Job.try_ .storage (store.clear role)
  note .info ("cleared " ++ toString n ++ " stored session(s)")
  say ("Cleared " ++ toString n ++ " stored session(s)" ++
    match role with
    | some role => " for role '" ++ role ++ "'"
    | none => "")

def cleanup (store : Store) (maxAgeHours : Option Nat) : Job Unit := do
  let seconds := match maxAgeHours with
    | some hours => min (hours * 3600) (UInt64.size - 1)
    | none => Store.cleanupAge
  let report ← Job.of (store.cleanup (seconds * 1000))
  report.deleted.forM fun file => say ("deleted " ++ file)
  report.errors.forM fun e => do
    note .warn ("cleanup: " ++ e)
    Job.of (Plan.request (.complain ("error: " ++ e)))
  say ("Removed " ++ toString report.count ++ " stored session(s) older than "
    ++ toString (seconds / 3600) ++ "h")

/-- Print the current one-time code of a role. -/
def totp (s : Settings) (role : String) : Job Unit := do
  if let .error e := s.role role then
    throw (.credential e)
  match s.oidcFor role with
  | none => throw (.config (.sectionMissing .oidc))
  | some o =>
    match o.mfa.secretVar with
    | none => throw (.message ("role '" ++ role ++ "' has no mfa.totpSecretEnv"))
    | some envVar =>
      let engine : Totp.Engine := {}
      let secret ← Job.try_ .mfa (Totp.secretFromEnv envVar)
      let code ← Job.try_ .mfa (engine.generate secret)
      let left ← Job.of engine.secondsLeft
      say (code ++ " (valid for " ++ toString left ++ "s)")

/-- Carry out an action. -/
def run (i : Invocation) : Job Unit := do
  let s ← Job.try_ (.load i.config) (loadSettings i.config)
  let store := storeOf s i.env
  match i.action with
  | .check roles => check s roles
  | .list => list store
  | .status role => status s store role
  | .clear role => clear store role
  | .cleanup hours => cleanup store hours
  | .totp role => totp s role

end SignOn.Command
