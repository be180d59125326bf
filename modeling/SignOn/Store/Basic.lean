import SignOn.Json.Decode
import SignOn.Json.Printer
import SignOn.Plan
import SignOn.Store.Naming

/-! # The store of sessions

Sessions are kept in files, one for each role.  Whether a session is valid follows from the age of
its file alone, and from whether the file can be read.

* `write` puts a session in place as a whole: first beside its file, then by renaming.
* `isValidAt`, `load`, `read` and `list` look at what is stored.
* `clear` and `cleanup` take sessions away. -/

namespace SignOn

/-- What is wrong with a stored session. -/
inductive StorageCause where
  | missing
  | corrupted
  | invalid
deriving DecidableEq, Repr, Inhabited

def StorageCause.name : StorageCause → String
  | .missing => "missing"
  | .corrupted => "corrupted"
  | .invalid => "invalid"

/-- Failure of the store of sessions; why a text could not be decoded completes the message. -/
structure StorageError where
  role : String
  path : String
  cause : StorageCause
  message : String
  detail : Option Json.DecodeError := none
deriving DecidableEq, Repr

/-- The failure in one line, up to its detail. -/
def StorageError.text (e : StorageError) : String :=
  "storage state for role '" ++ e.role ++ "' is " ++ e.cause.name ++ " (" ++ e.path ++ "): "
    ++ e.message

def StoredSession.decoder : Json.Decoder StoredSession :=
  Json.record "StoredSession" {}
    [Json.required "cookies" (Json.sequence Json.value) fun v r => { r with cookies := .ofList v },
     Json.required "origins" (Json.sequence Json.value) fun v r => { r with origins := .ofList v }]

/-- What a file of a session holds. -/
def StoredSession.written (s : StoredSession) : String :=
  Json.pretty s.toJson

/-- Keeps sessions in files, whose names may speak of an environment. -/
structure Store where
  settings : StoreSettings
  env : Option String := none
  logger : Logger
deriving DecidableEq, Repr

namespace Store

/-- A store for an environment; an empty name is none. -/
def withEnv (s : Store) (env : Option String) : Store :=
  { s with env := env.filter (· ≠ "") }

/-- The directory of the sessions. -/
def directory (s : Store) : String :=
  s.settings.directory

/-- Seconds that a session stays valid, within 64 bits. -/
def maxAge (s : Store) : Nat :=
  min (s.settings.maxAgeMinutes * 60) (UInt64.size - 1)

/-- The path of a role's session. -/
def path (s : Store) (role : String) : String :=
  pathFor s.settings s.env role

def failure (s : Store) (role : String) (cause : StorageCause) (message : String) : StorageError :=
  { role, path := s.path role, cause, message }

/-! ### Writing -/

/-- The path of the file that a session is first written to. -/
def temporary (path : String) : String :=
  path ++ ".tmp"

/-- Write the session of a role. -/
def write (s : Store) (role : String) (session : StoredSession) :
    Plan (Except StorageError String) := do
  let path := s.path role
  let invalid (what : String) (e : FileError) : Except StorageError String :=
    .error (s.failure role .invalid (what ++ ": " ++ e.message))
  let parent := (Path.parent? path).getD ""
  match ← Plan.file (.makeDirectories parent) with
  | .error e => return invalid ("failed to create " ++ parent) e
  | .ok _ =>
    match ← Plan.file (.write (temporary path) session.written) with
    | .error e => return invalid ("failed to write " ++ temporary path) e
    | .ok _ =>
      match ← Plan.file (.rename (temporary path) path) with
      | .error e => return invalid ("failed to move " ++ temporary path ++ " into place") e
      | .ok _ =>
        s.logger.info ("saved storage state for role '" ++ role ++ "' to " ++ path)
        return .ok path

/-- Write what the page holds as the session of a role. -/
def save (s : Store) (role : String) : Plan (Except StorageError String) := do
  match ← Plan.page .storageState with
  | .error e =>
    return .error (s.failure role .invalid ("failed to export storage state: " ++ e.message))
  | .ok session => s.write role session

/-! ### Reading -/

def readSession (path : String) :
    Plan (Except (StorageCause × String × Option Json.DecodeError) StoredSession) := do
  match ← Plan.file (.read path) with
  | .error .notFound => return .error (.missing, "file does not exist", none)
  | .error e => return .error (.invalid, e.message, none)
  | .ok content =>
    match Json.decodeReading StoredSession.decoder (Json.readSymbols content.symbols) with
    | .ok session => return .ok session
    | .error e =>
      return .error (.corrupted, "expected \x7bcookies: [], origins: []\x7d: ", some e)

/-- Milliseconds between two times; none if the first lies behind the second. -/
def age (modified now : Int) : Nat :=
  (now - modified).toNat

/-- Is the session in a file valid at a time? -/
def isPathValidAt (s : Store) (path : String) (now : Int) : Plan Bool := do
  match ← Plan.file (.modified path) with
  | .error _ => return false
  | .ok (modified : Int) =>
    let age := age modified now
    if age > s.maxAge * 1000 then
      s.logger.debug (path ++ " expired (" ++ toString (age / 1000) ++ "s old)")
      return false
    return (← readSession path).isOk

/-- Is the session of a role valid at a time? -/
def isValidAt (s : Store) (role : String) (now : Int) : Plan Bool :=
  s.isPathValidAt (s.path role) now

/-- Is the session of a role valid now? -/
def isValid (s : Store) (role : String) : Plan Bool := do
  s.isValidAt role (← Plan.wallClock)

/-- The path of the session of a role if it is valid now. -/
def load (s : Store) (role : String) : Plan (Option String) := do
  if ← s.isValid role then
    s.logger.debug ("reusing storage state for role '" ++ role ++ "' from " ++ s.path role)
    return some (s.path role)
  return none

def read (s : Store) (role : String) : Plan (Except StorageError StoredSession) := do
  match ← readSession (s.path role) with
  | .ok session => return .ok session
  | .error (cause, message, detail) =>
    return .error { role, path := s.path role, cause, message, detail }

/-! ### Files of the directory -/

/-- The files of the directory with the ending of sessions, in ascending order. -/
def files (s : Store) : Plan (Except FileError (List String)) := do
  match ← Plan.file (.names s.directory) with
  | .error e => return .error e
  | .ok names =>
    return .ok ((List.filter (Path.hasExtension · "json") names).map (Path.join s.directory))

/-- A stored session of the directory, and when its file was last changed, in milliseconds since 1970. -/
structure Stored where
  role : String
  createdAt : Int
  path : String
  isValid : Bool
deriving DecidableEq, Repr, Inhabited

/-- What is known of a file, if its name speaks of a role. -/
def stored? (s : Store) (now : Int) (path : String) : Plan (Option Stored) := do
  match roleOf? path s.settings.filePattern with
  | none => return none
  | some role =>
    match ← Plan.file (.modified path) with
    | .error _ => return none
    | .ok (createdAt : Int) =>
      return some { role, createdAt, path, isValid := ← s.isPathValidAt path now }

/-- What is known of several files. -/
def storedAmong (s : Store) (now : Int) : List String → Plan (List Stored)
  | [] => return []
  | path :: rest => do
    let first ← s.stored? now path
    let others ← s.storedAmong now rest
    return first.toList ++ others

/-- The stored sessions of the directory, by role, and those of one role by path. -/
def list (s : Store) : Plan (List Stored) := do
  let now ← Plan.wallClock
  match ← s.files with
  | .error _ => return []
  | .ok files =>
    return (← s.storedAmong now files).mergeSort fun a b => !decide (b.role < a.role)

/-! ### Taking away -/

/-- Take away the session of a role; how many there were. -/
def clearRole (s : Store) (role : String) : Plan (Except StorageError Nat) := do
  match ← Plan.file (.remove (s.path role)) with
  | .ok _ =>
    s.logger.info ("cleared storage state for role '" ++ role ++ "'")
    return .ok 1
  | .error .notFound => return .ok 0
  | .error e => return .error (s.failure role .invalid e.message)

/-- Take away files; how many could be taken away. -/
def removeAll (s : Store) : List String → Plan Nat
  | [] => return 0
  | path :: rest => do
    let removed ← match ← Plan.file (.remove path) with
      | .ok _ => pure 1
      | .error .notFound => pure 0
      | .error e => do
        s.logger.warn ("failed to remove " ++ path ++ ": " ++ e.message)
        pure 0
    return removed + (← s.removeAll rest)

/-- Take away the session of a role, or all of them; how many there were. -/
def clear (s : Store) (role : Option String) : Plan (Except StorageError Nat) :=
  match role with
  | some role => s.clearRole role
  | none => do
    match ← s.files with
    | .error .notFound => return .ok 0
    | .error e =>
      return .error { role := "*", path := s.directory, cause := .invalid, message := e.message }
    | .ok files =>
      let n ← s.removeAll files
      s.logger.info ("cleared " ++ toString n ++ " storage state file(s)")
      return .ok n

/-- What a cleanup has done: how many files it has taken away, which ones, and what went wrong. -/
structure Report where
  count : Nat := 0
  deleted : List String := []
  errors : List String := []
deriving DecidableEq, Repr, Inhabited

/-- What a cleanup does with one file. -/
def sweepFile (path : String) (maxAge : Nat) (now : Int) : Plan Report := do
  match ← Plan.file (.modified path) with
  | .error e => return { errors := [path ++ ": " ++ e.message] }
  | .ok (modified : Int) =>
    if age modified now ≤ maxAge then
      return {}
    match ← Plan.file (.remove path) with
    | .ok _ => return { count := 1, deleted := [path] }
    | .error e => return { errors := [path ++ ": " ++ e.message] }

/-- What a cleanup does with several files. -/
def sweepFiles (maxAge : Nat) (now : Int) : List String → Plan Report
  | [] => return {}
  | path :: rest => do
    let a ← sweepFile path maxAge now
    let b ← sweepFiles maxAge now rest
    return { count := a.count + b.count, deleted := a.deleted ++ b.deleted, errors := a.errors ++ b.errors }

/-- Take away the sessions that are older than `maxAge` milliseconds at a time. -/
def cleanupAt (s : Store) (maxAge : Nat) (now : Int) : Plan Report := do
  match ← s.files with
  | .error .notFound => return {}
  | .error e => return { errors := [s.directory ++ ": " ++ e.message] }
  | .ok files =>
    let r ← sweepFiles maxAge now files
    if r.count > 0 ∨ r.errors ≠ [] then
      s.logger.info ("cleanup removed " ++ toString r.count ++ " file(s), "
        ++ toString r.errors.length ++ " error(s)")
    return r

/-- Take away the sessions that are older than `maxAge` milliseconds now. -/
def cleanup (s : Store) (maxAge : Nat) : Plan Report := do
  s.cleanupAt maxAge (← Plan.wallClock)

/-- Seconds behind which a cleanup takes sessions away unless it is told otherwise: a day. -/
def cleanupAge : Nat := 24 * 60 * 60

end Store

end SignOn
