import SignOn.Text.Search

/-! # Failures

* `AuthError` is a failure of a login, with the phase that it happened in.
* `FileError` is a failure of an operation on a file.
* `PageError`, `MfaError`, `CredentialError` and `ConfigError` are failures of one component;
  those on the way of a login become an `AuthError`.

Each type has one `message` with its wording.  Whether a login is tried again depends on the
wording alone (`isRetryable`). -/

namespace SignOn

/-- Stage of a login. -/
inductive AuthPhase where
  | navigation
  | credentials
  | mfa
  | callback
deriving DecidableEq, Repr, Inhabited

namespace AuthPhase

def name : AuthPhase → String
  | .navigation => "navigation"
  | .credentials => "credentials"
  | .mfa => "mfa"
  | .callback => "callback"

def ofName? : String → Option AuthPhase
  | "navigation" => some .navigation
  | "credentials" => some .credentials
  | "mfa" => some .mfa
  | "callback" => some .callback
  | _ => none

theorem ofName?_name (p : AuthPhase) : ofName? p.name = some p := by
  cases p <;> rfl

/-- Hint for the operator on a failure in a phase. -/
def remediation (role : String) : AuthPhase → String
  | .navigation =>
    "Check that the login URL configured for role '" ++ role
      ++ "' is reachable and that the IdP redirect URL is correct"
  | .credentials =>
    "Verify the username/password environment variables for role '" ++ role
      ++ "' and the IdP field selectors"
  | .mfa =>
    "Verify the TOTP secret configured for role '" ++ role
      ++ "' and that the MFA type matches the IdP"
  | .callback =>
    "Check the success URL/selector for role '" ++ role
      ++ "' and complete any pending IdP prompts for this user manually"

end AuthPhase

/-- Failure of a page. -/
inductive PageError where
  | timeout (target : String) (ms : Nat)
  | navigation (url reason : String)
  | selector (s : String)
  | other (s : String)
deriving DecidableEq, Repr, Inhabited

/-- The wording of a page failure. -/
def PageError.message : PageError → String
  | .timeout target ms =>
    "timeout of " ++ toString ms ++ "ms exceeded while waiting for " ++ target
  | .navigation url reason => "navigation to " ++ url ++ " failed: " ++ reason
  | .selector s => "selector not found: " ++ s
  | .other s => s

/-- Failure of the one-time codes. -/
inductive MfaError where
  | secretMissing (envVar : String)
  | invalidSecret (reason : String)
  | clock (reason : String)
deriving DecidableEq, Repr, Inhabited

/-- The wording of a failure of the one-time codes. -/
def MfaError.message : MfaError → String
  | .secretMissing v => "TOTP secret environment variable " ++ v ++ " is not set"
  | .invalidSecret reason => "invalid TOTP secret: " ++ reason
  | .clock reason => "system clock error: " ++ reason

/-- Hint for the operator on a failure of the one-time codes. -/
def MfaError.remediation (role : String) : MfaError → String
  | .secretMissing v => "export " ++ v ++ "=<base32 TOTP secret for role '" ++ role ++ "'>"
  | .invalidSecret _ => "The TOTP secret for role '" ++ role ++ "' must be base32 encoded"
  | .clock _ => "Check the system clock"

/-- Failure of looking up credentials. -/
inductive CredentialError where
  | unknownRole (role : String) (available : List String)
  | missing (role : String) (vars : List String)
deriving DecidableEq, Repr, Inhabited

namespace CredentialError

def role : CredentialError → String
  | .unknownRole role _ => role
  | .missing role _ => role

/-- The wording of a failure of looking up credentials. -/
def message : CredentialError → String
  | .unknownRole role _ => "role '" ++ role ++ "' is not defined in the auth configuration"
  | .missing role vars =>
    "missing credentials for role '" ++ role ++ "': " ++ Text.join ", " vars ++ " not set"

def remediation : CredentialError → String
  | .unknownRole role available =>
    "Add role '" ++ role ++ "' to the roles section of the auth config (configured: "
      ++ Text.join ", " available ++ ")"
  | .missing _ vars => Text.join "; " (vars.map fun v => "export " ++ v ++ "=...")

end CredentialError

/-- Words that mark a failure as passing. -/
def retryableMarkers : List String :=
  ["timeout", "network", "net::", "econnrefused", "enotfound"]

/-- Does a message speak of a timeout or of the network? -/
def isRetryable (message : String) : Bool :=
  let lower := Text.asciiLower message
  retryableMarkers.any (Text.contains lower)

/-- Failure of a login, with what the identity provider showed on its page, a hint for the operator, and the message
from before the identity provider's own took its place. -/
structure AuthError where
  message : String
  role : String
  phase : AuthPhase
  idpResponse : Option String := none
  remediation : Option String := none
  cause : Option String := none
deriving DecidableEq, Repr, Inhabited

namespace AuthError

def text (e : AuthError) : String :=
  "authentication failed for role '" ++ e.role ++ "' during " ++ e.phase.name ++ ": " ++ e.message

/-- Report what the identity provider showed; the message so far becomes the cause. -/
def withIdpResponse (e : AuthError) (response : String) : AuthError :=
  { e with
    message := "identity provider reported: " ++ response
    cause := some e.message
    idpResponse := some response }

def withRemediation (e : AuthError) (hint : String) : AuthError :=
  { e with remediation := some hint }

/-- Attach the hint of the phase unless there is a hint already. -/
def withDefaultRemediation (e : AuthError) (role : String) : AuthError :=
  match e.remediation with
  | some _ => e
  | none => e.withRemediation (e.phase.remediation role)

/-- May the login be tried again? -/
def isRetryable (e : AuthError) : Bool :=
  SignOn.isRetryable e.message

def ofPage (role : String) (phase : AuthPhase) (e : PageError) : AuthError :=
  { message := e.message, role, phase }

/-- A failure of the one-time codes. -/
def ofMfa (role : String) (e : MfaError) : AuthError :=
  { message := e.message, role, phase := .mfa, remediation := some (e.remediation role) }

/-- A failure of looking up credentials. -/
def ofCredential (e : CredentialError) : AuthError :=
  { message := e.message, role := e.role, phase := .credentials,
    remediation := some e.remediation }

end AuthError

/-- Failure of an operation on a file: by the number that the system gives to its cause, or because a file that was to
hold text does not, or because a path holds a NUL character. -/
inductive FileError where
  | system (code : Nat)
  | notText
  | nulInPath
deriving DecidableEq, Repr, Inhabited

namespace FileError

@[match_pattern] def notFound : FileError := .system 2

@[match_pattern] def exists_ : FileError := .system 17

/-- A part of the path is no directory. -/
@[match_pattern] def notDirectory : FileError := .system 20

@[match_pattern] def isDirectory : FileError := .system 21

/-- A name or a path is too long. -/
@[match_pattern] def nameTooLong : FileError := .system 36

@[match_pattern] def tooManyLinks : FileError := .system 40

/-- What the system calls the causes of its failures, by their numbers. -/
def systemTexts : List String :=
  ["Success", "Operation not permitted", "No such file or directory", "No such process",
   "Interrupted system call", "Input/output error", "No such device or address",
   "Argument list too long", "Exec format error", "Bad file descriptor", "No child processes",
   "Resource temporarily unavailable", "Cannot allocate memory", "Permission denied", "Bad address",
   "Block device required", "Device or resource busy", "File exists", "Invalid cross-device link",
   "No such device", "Not a directory", "Is a directory", "Invalid argument",
   "Too many open files in system", "Too many open files", "Inappropriate ioctl for device",
   "Text file busy", "File too large", "No space left on device", "Illegal seek",
   "Read-only file system", "Too many links", "Broken pipe", "Numerical argument out of domain",
   "Numerical result out of range", "Resource deadlock avoided", "File name too long",
   "No locks available", "Function not implemented", "Directory not empty",
   "Too many levels of symbolic links"]

/-- The wording of a failure of an operation on a file. -/
def message : FileError → String
  | .system code =>
    systemTexts[code]?.getD ("Unknown error " ++ toString code) ++ " (os error " ++ toString code ++ ")"
  | .notText => "stream did not contain valid UTF-8"
  | .nulInPath => "file name contained an unexpected NUL byte"

end FileError

end SignOn
