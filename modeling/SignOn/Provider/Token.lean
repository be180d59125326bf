import SignOn.Json.Decode
import SignOn.Json.Printer
import SignOn.Provider.Basic
import SignOn.Settings.Format

/-! # Signing on at an endpoint that gives out tokens

The credentials are posted to an endpoint; the token in its answer is kept in the storage of the
page.

* `TokenRecord` is what is kept, `storedRecord` reads it back.
* `tokenOf` finds the token in an answer. -/

namespace SignOn

/-- A token as it is kept in the storage of the page, with its time in milliseconds since 1970. -/
structure TokenRecord where
  token : String
  headerName : String
  headerPrefix : String
  timestamp : Int
deriving DecidableEq, Repr, Inhabited

namespace TokenRecord

/-- The value of the header that carries the token. -/
def header (r : TokenRecord) : String :=
  if r.headerPrefix = "" then r.token else r.headerPrefix ++ " " ++ r.token

/-- The record as it may be shown: without the token. -/
def shown (r : TokenRecord) : String :=
  "TokenRecord \x7b token: \"****\", header_name: " ++ Text.visible r.headerName
    ++ ", header_prefix: " ++ Text.visible r.headerPrefix ++ ", timestamp: "
    ++ toString r.timestamp ++ " \x7d"

def toJson (r : TokenRecord) : Json :=
  Json.fields
    [("token", .string r.token), ("headerName", .string r.headerName),
     ("headerPrefix", .string r.headerPrefix), ("timestamp", .number (.int r.timestamp))]

def decoder : Json.Decoder TokenRecord :=
  Json.record "TokenRecord" default
    [Json.required "token" Json.text fun v r => { r with token := v },
     Json.required "headerName" Json.text fun v r => { r with headerName := v },
     Json.required "headerPrefix" Json.text fun v r => { r with headerPrefix := v },
     Json.required "timestamp" Json.int64 fun v r => { r with timestamp := v }]

end TokenRecord

namespace Provider

/-- The name under which requests are sent. -/
def userAgent : String := "authstate/0.1.0"

/-- The usual reason of a status. -/
def statusReason : Nat → String
  | 100 => "Continue" | 101 => "Switching Protocols" | 102 => "Processing"
  | 300 => "Multiple Choices" | 301 => "Moved Permanently" | 302 => "Found" | 303 => "See Other"
  | 304 => "Not Modified" | 305 => "Use Proxy" | 307 => "Temporary Redirect"
  | 308 => "Permanent Redirect" | 400 => "Bad Request" | 401 => "Unauthorized"
  | 402 => "Payment Required" | 403 => "Forbidden" | 404 => "Not Found"
  | 405 => "Method Not Allowed" | 406 => "Not Acceptable" | 407 => "Proxy Authentication Required"
  | 408 => "Request Timeout" | 409 => "Conflict" | 410 => "Gone" | 411 => "Length Required"
  | 412 => "Precondition Failed" | 413 => "Payload Too Large" | 414 => "URI Too Long"
  | 415 => "Unsupported Media Type" | 416 => "Range Not Satisfiable" | 417 => "Expectation Failed"
  | 418 => "I'm a teapot" | 421 => "Misdirected Request" | 422 => "Unprocessable Entity"
  | 423 => "Locked" | 424 => "Failed Dependency" | 425 => "Too Early" | 426 => "Upgrade Required"
  | 428 => "Precondition Required" | 429 => "Too Many Requests"
  | 431 => "Request Header Fields Too Large" | 451 => "Unavailable For Legal Reasons"
  | 500 => "Internal Server Error" | 501 => "Not Implemented" | 502 => "Bad Gateway"
  | 503 => "Service Unavailable" | 504 => "Gateway Timeout" | 505 => "HTTP Version Not Supported"
  | 506 => "Variant Also Negotiates" | 507 => "Insufficient Storage" | 508 => "Loop Detected"
  | 510 => "Not Extended" | 511 => "Network Authentication Required"
  | _ => "<unknown status code>"

def statusText (status : Nat) : String :=
  toString status ++ " " ++ statusReason status

/-- The request for a token: the further fields of the settings, with the credentials over them. -/
def tokenRequest (s : TokenSettings) (c : Credentials) : Json :=
  .object ((s.extraFields.insert s.usernameField (.string c.username)).insert s.passwordField
    (.string c.password))

/-- The token in an answer: a string that is not empty. -/
def tokenOf (s : TokenSettings) (answer : Json) : Option String :=
  match answer.lookup s.tokenField with
  | some (.string t) => if t = "" then none else some t
  | _ => none

/-- The address that a request to an endpoint goes to, with the user in it left out, unless the endpoint is no address
or the scheme of the address cannot be spoken. -/
inductive Endpoint where
  | reachable (address : String)
  | noAddress
  | otherScheme (address : String)
deriving DecidableEq, Repr

/-- Read the address of an endpoint. -/
def Endpoint.of (endpoint : String) : Endpoint :=
  match Url.parse? endpoint with
  | none => .noAddress
  | some u =>
    let address := { u with username := "", password := "" }.text
    if u.scheme = "http" ∨ u.scheme = "https" then .reachable address else .otherScheme address

/-- Judge the answer to a request for a token. -/
def judgeAnswer (s : TokenSettings) (role : String) (status : Nat) (body : String) :
    Except AuthError String :=
  if status = 401 ∨ status = 403 then
    .error
      { message := "token endpoint rejected the credentials: " ++ statusText status
        role, phase := .credentials
        remediation := some ("Verify the username/password environment variables for role '"
          ++ role ++ "'") }
  else if status < 200 ∨ 299 < status then
    .error
      { message := "token endpoint " ++ s.endpoint ++ " returned " ++ statusText status
        role, phase := .navigation }
  else
    match Json.parse body with
    | .error _ =>
      .error
        { message := "invalid token response: error decoding response body"
          role, phase := .callback }
    | .ok answer =>
      match tokenOf s answer with
      | some t => .ok t
      | none =>
        .error
          { message := "no token at '" ++ s.tokenField ++ "' in the token response"
            role, phase := .callback }

/-- A request that has had no answer. -/
def transportFailure (s : TokenSettings) (role reason : String) : AuthError :=
  { message := "token request to " ++ s.endpoint ++ " failed: " ++ reason
    role, phase := .navigation }

/-- What became of a request for a token. -/
def judge (s : TokenSettings) (role address : String) : Exchange → Except AuthError String
  | .answer status body => judgeAnswer s role status body
  | .timedOut =>
    .error
      { message := "timeout of " ++ toString s.timeout ++ "ms exceeded waiting for token endpoint "
          ++ s.endpoint
        role, phase := .navigation }
  | .unreachable =>
    .error
      { message := "network error reaching token endpoint " ++ s.endpoint
          ++ ": error sending request for url (" ++ address ++ ")"
        role, phase := .navigation }
  | .brokenOff =>
    .error (transportFailure s role ("error sending request for url (" ++ address ++ ")"))

/-- Exchange the credentials for a token. -/
def requestToken (s : TokenSettings) (role : String) (c : Credentials) : Attempt String :=
  match Endpoint.of s.endpoint with
  | .noAddress => throw (transportFailure s role "builder error")
  | .otherScheme address =>
    throw (transportFailure s role ("builder error for url (" ++ address ++ ")"))
  | .reachable address => do
    let e ← Attempt.of (Plan.request (.post ⟨address, tokenRequest s c, s.timeout⟩))
    Attempt.ofExcept (judge s role address e)

/-- The key of the record as it stands in a script. -/
def storageKey (s : TokenSettings) : String :=
  Json.quote s.storageKey

/-- The script that keeps a record. -/
def storeScript (s : TokenSettings) (r : TokenRecord) : String :=
  "window.localStorage.setItem(" ++ storageKey s ++ ", " ++ Json.quote (Json.compact r.toJson)
    ++ ")"

/-- The script that reads the record. -/
def readScript (s : TokenSettings) : String :=
  "window.localStorage.getItem(" ++ storageKey s ++ ")"

/-- The script that takes the record away. -/
def removeScript (s : TokenSettings) : String :=
  "window.localStorage.removeItem(" ++ storageKey s ++ ")"

/-- The record that the page keeps, if it keeps one. -/
def storedRecord (s : TokenSettings) : Plan (Option TokenRecord) := do
  match ← Plan.page (.evaluate (readScript s)) with
  | .ok (.string raw) => return (Json.decode TokenRecord.decoder raw).toOption
  | _ => return none

/-- One login: get a token and keep it. -/
def tokenAttempt (s : TokenSettings) (role : String) (logger : Logger) (c : Credentials) :
    Attempt SignedOn := do
  let start ← Attempt.of Plan.clock
  let token ← requestToken s role c
  let timestamp ← Attempt.of Plan.wallClock
  let record : TokenRecord :=
    { token, headerName := s.headerName, headerPrefix := s.headerPrefix, timestamp }
  let _ ← Attempt.page role .callback (.evaluate (storeScript s record))
  Attempt.of (logger.info ("stored " ++ s.headerName ++ " token for role '" ++ role ++ "' under "
    ++ s.storageKey))
  Attempt.of (SignedOn.since start)

/-- Signing on at an endpoint that gives out tokens. -/
def token (s : TokenSettings) (role : String) (retry : RetryPolicy) (logger : Logger) :
    Provider where
  name := "token"
  role := role
  login c := withRetry retry role logger fun _ => tokenAttempt s role logger c
  isSessionValid := return (← storedRecord s).isSome
  logout := do
    let _ ← Attempt.page role .callback (.evaluate (removeScript s))

end Provider

end SignOn
