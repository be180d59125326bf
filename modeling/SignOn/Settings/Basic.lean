import SignOn.Error
import SignOn.Json.Value
import SignOn.Pattern.Parser

/-! # Settings of a sign-on

The declarative settings: how to sign on (`provider` and the section of its kind), the roles with
the environment variables of their credentials, and the limits for retries, the store and logs.

* `OidcSettings.merged` applies a role's overrides to the shared section, field by field.
* `SelectorOverrides.merged` layers overrides of selectors; the later one wins.
* `Settings.oidcFor` is what counts for a role. -/

namespace SignOn

/-! ### Identity providers and selectors -/

/-- Families of identity providers; `auto` is to be told from the address that the sign-on is sent to. -/
inductive IdpKind where
  | keycloak
  | azureAd
  | okta
  | generic
  | auto
deriving DecidableEq, Repr, Inhabited

def IdpKind.name : IdpKind → String
  | .keycloak => "keycloak"
  | .azureAd => "azure-ad"
  | .okta => "okta"
  | .generic => "generic"
  | .auto => "auto"

def IdpKind.all : List IdpKind :=
  [.keycloak, .azureAd, .okta, .generic, .auto]

/-- The elements of a sign-on form; `next` leads on from the page of the user name where the form has two pages. -/
structure Selectors where
  username : String
  password : String
  submit : String
  next : Option String
deriving DecidableEq, Repr, Inhabited

/-- The element that leads on from the page of the user name. -/
def Selectors.nextOrSubmit (s : Selectors) : String :=
  s.next.getD s.submit

/-- Changes to the elements of a sign-on form. -/
structure SelectorOverrides where
  username : Option String := none
  password : Option String := none
  submit : Option String := none
  next : Option String := none
deriving DecidableEq, Repr, Inhabited

namespace SelectorOverrides

def merged (o later : SelectorOverrides) : SelectorOverrides where
  username := later.username.orElse fun _ => o.username
  password := later.password.orElse fun _ => o.password
  submit := later.submit.orElse fun _ => o.submit
  next := later.next.orElse fun _ => o.next

/-- Change the elements of a form. -/
def apply (o : SelectorOverrides) (base : Selectors) : Selectors where
  username := o.username.getD base.username
  password := o.password.getD base.password
  submit := o.submit.getD base.submit
  next := o.next.orElse fun _ => base.next

end SelectorOverrides

/-! ### Parts of the settings -/

/-- How to sign on. -/
inductive ProviderKind where
  | oidc
  | form
  | token
  | custom
deriving DecidableEq, Repr, Inhabited

def ProviderKind.name : ProviderKind → String
  | .oidc => "oidc"
  | .form => "form"
  | .token => "token"
  | .custom => "custom"

/-- Kinds of a second factor. -/
inductive MfaKind where
  | totp
  | push
  | sms
  | none
deriving DecidableEq, Repr, Inhabited

def MfaKind.name : MfaKind → String
  | .totp => "totp"
  | .push => "push"
  | .sms => "sms"
  | .none => "none"

/-- The second factor, with the environment variable of the secret of one-time codes. -/
structure MfaSettings where
  kind : MfaKind := .none
  secretVar : Option String := none
  inputSelector : Option String := none
  submitSelector : Option String := none
  pushTimeout : Option Nat := none
deriving DecidableEq, Repr, Inhabited

/-- Milliseconds to wait for the approval of a push. -/
def MfaSettings.pushTimeoutMs (m : MfaSettings) : Nat :=
  m.pushTimeout.getD 60000

/-- How the address behind a login is recognised. -/
inductive UrlMatch where
  | contains (fragment : String)
  | regex (pattern : String)
deriving DecidableEq, Repr, Inhabited

/-- A way to compile patterns: a text that is no pattern gives nothing, and any other one the test for what it
matches. -/
abbrev Compiler := String → Option (String → Bool)

/-- The patterns that are read here. -/
def Pattern.compile? : Compiler := fun text =>
  (parse? text).map found

namespace UrlMatch

/-- Is an address recognised?  A text that is no pattern recognises none. -/
def holdsBy (compile : Compiler) : UrlMatch → String → Bool
  | .contains fragment, url => Text.contains url fragment
  | .regex pattern, url => (compile pattern).any (· url)

@[inherit_doc holdsBy]
def holds : UrlMatch → String → Bool :=
  holdsBy Pattern.compile?

def text : UrlMatch → String
  | .contains fragment => "url containing '" ++ fragment ++ "'"
  | .regex pattern => "url matching /" ++ pattern ++ "/"

def isUsableBy (compile : Compiler) : UrlMatch → Bool
  | .contains _ => true
  | .regex pattern => (compile pattern).isSome

end UrlMatch

/-- How a page behind a login is recognised. -/
structure SuccessCriteria where
  url : Option UrlMatch := none
  selector : Option String := none
  timeout : Option Nat := none
deriving DecidableEq, Repr, Inhabited

namespace SuccessCriteria

/-- Milliseconds to wait for the page. -/
def timeoutMs (c : SuccessCriteria) : Nat :=
  c.timeout.getD 30000

/-- Is there anything to recognise the page by? -/
def isSet (c : SuccessCriteria) : Bool :=
  c.url.isSome || c.selector.isSome

/-- Is the pattern of the address, if there is one, usable? -/
def isUsableBy (compile : Compiler) (c : SuccessCriteria) : Bool :=
  c.url.all (UrlMatch.isUsableBy compile)

end SuccessCriteria

/-- Time limits of a login, in milliseconds. -/
structure Timeouts where
  loginFlow : Nat := 60000
  idpRedirect : Nat := 30000
  callback : Nat := 30000
deriving DecidableEq, Repr, Inhabited

/-- Where to sign off. -/
structure LogoutSettings where
  url : String
  idpLogout : Bool := false
deriving DecidableEq, Repr, Inhabited

/-- How long to look for an element, and how often. -/
structure Probe where
  timeout : Nat := 2000
  interval : Nat := 100
deriving DecidableEq, Repr, Inhabited

/-- Milliseconds to wait for a field of a form unless set otherwise. -/
def defaultFieldTimeout : Nat := 10000

/-- Signing on through an identity provider. -/
structure OidcSettings where
  idp : IdpKind := .auto
  loginUrl : String
  idpLoginUrl : Option String := none
  skipIdpRedirect : Bool := false
  selectors : Option SelectorOverrides := none
  mfa : MfaSettings := {}
  success : SuccessCriteria := {}
  timeouts : Timeouts := {}
  logout : Option LogoutSettings := none
  probe : Probe := {}
  fieldTimeout : Nat := defaultFieldTimeout
  settle : Nat := 500
deriving DecidableEq, Repr, Inhabited

/-- What a role changes of the shared section. -/
structure OidcOverrides where
  idp : Option IdpKind := none
  loginUrl : Option String := none
  idpLoginUrl : Option String := none
  skipIdpRedirect : Option Bool := none
  selectors : Option SelectorOverrides := none
  mfa : Option MfaSettings := none
  success : Option SuccessCriteria := none
  timeouts : Option Timeouts := none
  logout : Option LogoutSettings := none
deriving DecidableEq, Repr, Inhabited

/-- The shared section with a role's changes: a field that the role sets replaces the shared one,
and selectors are layered. -/
def OidcSettings.merged (base : OidcSettings) (o : OidcOverrides) : OidcSettings :=
  { base with
    idp := o.idp.getD base.idp
    loginUrl := o.loginUrl.getD base.loginUrl
    idpLoginUrl := o.idpLoginUrl.orElse fun _ => base.idpLoginUrl
    skipIdpRedirect := o.skipIdpRedirect.getD base.skipIdpRedirect
    selectors := match o.selectors, base.selectors with
      | some later, some earlier => some (earlier.merged later)
      | some later, none => some later
      | none, earlier => earlier
    mfa := o.mfa.getD base.mfa
    success := o.success.getD base.success
    timeouts := o.timeouts.getD base.timeouts
    logout := o.logout.orElse fun _ => base.logout }

/-- Signing on through a form of the application itself. -/
structure FormSettings where
  loginUrl : String
  usernameSelector : String :=
    "input[name=\"username\"], input[name=\"email\"], input[type=\"email\"]"
  passwordSelector : String := "input[name=\"password\"], input[type=\"password\"]"
  submitSelector : String := "button[type=\"submit\"], input[type=\"submit\"]"
  success : SuccessCriteria := {}
  logoutUrl : Option String := none
  fieldTimeout : Nat := defaultFieldTimeout
  navigationTimeout : Nat := 60000
  probe : Probe := {}
deriving DecidableEq, Repr, Inhabited

/-- Signing on at an endpoint that gives out tokens: the dotted path of the token in the answer, and further fields of
the request, among others. -/
structure TokenSettings where
  endpoint : String
  usernameField : String := "username"
  passwordField : String := "password"
  tokenField : String := "access_token"
  extraFields : JsonMembers := .nil
  headerName : String := "Authorization"
  headerPrefix : String := "Bearer"
  storageKey : String := "authstate.token"
  timeout : Nat := 30000
deriving DecidableEq

/-- How often to try again, and how long to wait before. -/
structure RetryPolicy where
  maxRetries : Nat := 2
  initialDelay : Nat := 1000
  multiplier : Float := 2.0
  maxDelay : Nat := 10000

/-- Where sessions are kept, and for how long. -/
structure StoreSettings where
  directory : String := ".auth-states"
  maxAgeMinutes : Nat := 60
  filePattern : String := "\x7brole\x7d.json"
deriving DecidableEq, Repr, Inhabited

/-- The environment variables of a role's credentials. -/
structure CredentialVars where
  username : String
  password : String
deriving DecidableEq, Repr, Inhabited

/-- A role. -/
structure RoleSettings where
  credentials : CredentialVars
  overrides : Option OidcOverrides := none
deriving DecidableEq, Repr, Inhabited

/-- The settings as a whole.  The roles stand in ascending order of their names. -/
structure Settings where
  provider : ProviderKind := .oidc
  roles : List (String × RoleSettings) := []
  oidc : Option OidcSettings := none
  form : Option FormSettings := none
  token : Option TokenSettings := none
  retry : RetryPolicy := {}
  store : StoreSettings := {}
  maskPasswords : Bool := true

/-- Set a role, keeping names in ascending order. -/
def insertRole (name : String) (role : RoleSettings) :
    List (String × RoleSettings) → List (String × RoleSettings)
  | [] => [(name, role)]
  | (n, r) :: rest =>
    if name < n then (name, role) :: (n, r) :: rest
    else if name = n then (name, role) :: rest
    else (n, r) :: insertRole name role rest

namespace Settings

/-- The names of the roles in ascending order. -/
def roleNames (s : Settings) : List String :=
  s.roles.map Prod.fst

def role (s : Settings) (name : String) : Except CredentialError RoleSettings :=
  match s.roles.lookup name with
  | some r => .ok r
  | none => .error (.unknownRole name s.roleNames)

/-- The shared section of identity providers with the changes of a role, if there is such a
section. -/
def oidcFor (s : Settings) (name : String) : Option OidcSettings :=
  s.oidc.map fun base =>
    match (s.roles.lookup name).bind RoleSettings.overrides with
    | some o => base.merged o
    | none => base

end Settings

end SignOn
