import SignOn.Settings.Basic
import SignOn.Json.Decode
import SignOn.Json.Printer

/-! # The written form of settings

Settings are JSON documents with keys in camel case.

* `Settings.ofText` reads and checks a document.
* `Settings.toJson` writes every field, with null for what is absent.
* `Settings.check` finds the first inconsistency. -/

namespace SignOn

open Json (Decoder Field required defaulting nullable record)

/-! ### Reading -/

def IdpKind.decoder : Decoder IdpKind :=
  Json.choice (IdpKind.all.map fun k => (k.name, k))

def ProviderKind.decoder : Decoder ProviderKind :=
  Json.choice ([.oidc, .form, .token, .custom].map fun k => (ProviderKind.name k, k))

def MfaKind.decoder : Decoder MfaKind :=
  Json.choice ([.totp, .push, .sms, .none].map fun k => (MfaKind.name k, k))

def SelectorOverrides.decoder : Decoder SelectorOverrides :=
  record "SelectorOverrides" {}
    [nullable "username" Json.text fun v r => { r with username := v },
     nullable "password" Json.text fun v r => { r with password := v },
     nullable "submit" Json.text fun v r => { r with submit := v },
     nullable "next" Json.text fun v r => { r with next := v }]

def Selectors.decoder : Decoder Selectors :=
  record "IdpSelectors" default
    [required "username" Json.text fun v r => { r with username := v },
     required "password" Json.text fun v r => { r with password := v },
     required "submit" Json.text fun v r => { r with submit := v },
     nullable "next" Json.text fun v r => { r with next := v }]

def MfaSettings.decoder : Decoder MfaSettings :=
  record "MfaConfig" {}
    [defaulting "type" MfaKind.decoder fun v r => { r with kind := v },
     nullable "totpSecretEnv" Json.text fun v r => { r with secretVar := v },
     nullable "totpInputSelector" Json.text fun v r => { r with inputSelector := v },
     nullable "totpSubmitSelector" Json.text fun v r => { r with submitSelector := v },
     nullable "pushTimeoutMs" Json.nat64 fun v r => { r with pushTimeout := v }]

/-- The pattern of an object with the member `regex`; other members do not count, a second `regex`
does. -/
def regexMember (members : DraftMembers) : (found : Option String) → Option String :=
  match members with
  | .stop _ => id
  | .more (.ok "regex") (.string s) rest => fun
    | none => regexMember rest (some s)
    | some _ => none
  | .more (.ok "regex") _ _ => fun _ => none
  | .more _ _ rest => regexMember rest

def UrlMatch.decoder : Decoder UrlMatch := fun depth d =>
  match Json.value depth d with
  | .error e => .error e
  | .ok _ =>
    let found : Option UrlMatch := match d with
      | .string s => some (.contains s)
      | .object members => (regexMember members none).map .regex
      | _ => none
    match found with
    | some m => .ok m
    | none => .error (.mismatch (.noVariant "UrlMatch"))

def SuccessCriteria.decoder : Decoder SuccessCriteria :=
  record "SuccessConfig" {}
    [nullable "url" UrlMatch.decoder fun v r => { r with url := v },
     nullable "selector" Json.text fun v r => { r with selector := v },
     nullable "timeout" Json.nat64 fun v r => { r with timeout := v }]

def Timeouts.decoder : Decoder Timeouts :=
  record "Timeouts" {}
    [defaulting "loginFlowMs" Json.nat64 fun v r => { r with loginFlow := v },
     defaulting "idpRedirectMs" Json.nat64 fun v r => { r with idpRedirect := v },
     defaulting "callbackMs" Json.nat64 fun v r => { r with callback := v }]

def LogoutSettings.decoder : Decoder LogoutSettings :=
  record "LogoutConfig" default
    [required "url" Json.text fun v r => { r with url := v },
     defaulting "idpLogout" Json.boolean fun v r => { r with idpLogout := v }]

def Probe.decoder : Decoder Probe :=
  record "ProbeConfig" {}
    [required "timeoutMs" Json.nat64 fun v r => { r with timeout := v },
     required "pollIntervalMs" Json.nat64 fun v r => { r with interval := v }]

def OidcSettings.decoder : Decoder OidcSettings :=
  record "OidcConfig" { loginUrl := "" }
    [defaulting "idpType" IdpKind.decoder fun v r => { r with idp := v },
     required "loginUrl" Json.text fun v r => { r with loginUrl := v },
     nullable "idpLoginUrl" Json.text fun v r => { r with idpLoginUrl := v },
     defaulting "skipIdpRedirect" Json.boolean fun v r => { r with skipIdpRedirect := v },
     nullable "idpSelectors" SelectorOverrides.decoder fun v r => { r with selectors := v },
     defaulting "mfa" MfaSettings.decoder fun v r => { r with mfa := v },
     defaulting "success" SuccessCriteria.decoder fun v r => { r with success := v },
     defaulting "timeouts" Timeouts.decoder fun v r => { r with timeouts := v },
     nullable "logout" LogoutSettings.decoder fun v r => { r with logout := v },
     defaulting "probe" Probe.decoder fun v r => { r with probe := v },
     defaulting "fieldTimeoutMs" Json.nat64 fun v r => { r with fieldTimeout := v },
     defaulting "settleMs" Json.nat64 fun v r => { r with settle := v }]

def OidcOverrides.decoder : Decoder OidcOverrides :=
  record "OidcOverrides" {}
    [nullable "idpType" IdpKind.decoder fun v r => { r with idp := v },
     nullable "loginUrl" Json.text fun v r => { r with loginUrl := v },
     nullable "idpLoginUrl" Json.text fun v r => { r with idpLoginUrl := v },
     nullable "skipIdpRedirect" Json.boolean fun v r => { r with skipIdpRedirect := v },
     nullable "idpSelectors" SelectorOverrides.decoder fun v r => { r with selectors := v },
     nullable "mfa" MfaSettings.decoder fun v r => { r with mfa := v },
     nullable "success" SuccessCriteria.decoder fun v r => { r with success := v },
     nullable "timeouts" Timeouts.decoder fun v r => { r with timeouts := v },
     nullable "logout" LogoutSettings.decoder fun v r => { r with logout := v }]

def FormSettings.decoder : Decoder FormSettings :=
  record "FormConfig" { loginUrl := "" }
    [required "loginUrl" Json.text fun v r => { r with loginUrl := v },
     defaulting "usernameSelector" Json.text fun v r => { r with usernameSelector := v },
     defaulting "passwordSelector" Json.text fun v r => { r with passwordSelector := v },
     defaulting "submitSelector" Json.text fun v r => { r with submitSelector := v },
     defaulting "success" SuccessCriteria.decoder fun v r => { r with success := v },
     nullable "logoutUrl" Json.text fun v r => { r with logoutUrl := v },
     defaulting "fieldTimeoutMs" Json.nat64 fun v r => { r with fieldTimeout := v },
     defaulting "navigationTimeoutMs" Json.nat64 fun v r => { r with navigationTimeout := v },
     defaulting "probe" Probe.decoder fun v r => { r with probe := v }]

/-- Members with any values, in the order of their keys. -/
def membersDecoder : Decoder JsonMembers := fun depth d =>
  (Json.mapping Json.value depth d).map fun ms =>
    ms.foldl (fun acc m => acc.insert m.1 m.2) .nil

def TokenSettings.decoder : Decoder TokenSettings :=
  record "TokenConfig" { endpoint := "" }
    [required "endpoint" Json.text fun v r => { r with endpoint := v },
     defaulting "usernameField" Json.text fun v r => { r with usernameField := v },
     defaulting "passwordField" Json.text fun v r => { r with passwordField := v },
     defaulting "tokenField" Json.text fun v r => { r with tokenField := v },
     defaulting "extraFields" membersDecoder fun v r => { r with extraFields := v },
     defaulting "headerName" Json.text fun v r => { r with headerName := v },
     defaulting "headerPrefix" Json.text fun v r => { r with headerPrefix := v },
     defaulting "storageKey" Json.text fun v r => { r with storageKey := v },
     defaulting "timeoutMs" Json.nat64 fun v r => { r with timeout := v }]

def RetryPolicy.decoder : Decoder RetryPolicy :=
  record "RetryPolicy" {}
    [defaulting "maxRetries" Json.nat32 fun v r => { r with maxRetries := v },
     defaulting "initialDelayMs" Json.nat64 fun v r => { r with initialDelay := v },
     defaulting "backoffMultiplier" Json.float fun v r => { r with multiplier := v },
     defaulting "maxDelayMs" Json.nat64 fun v r => { r with maxDelay := v }]

def StoreSettings.decoder : Decoder StoreSettings :=
  record "StorageStateConfig" {}
    [defaulting "directory" Json.path fun v r => { r with directory := v },
     defaulting "maxAgeMinutes" Json.nat64 fun v r => { r with maxAgeMinutes := v },
     defaulting "filePattern" Json.text fun v r => { r with filePattern := v }]

/-- Whether passwords are masked in logs. -/
def loggingDecoder : Decoder Bool :=
  record "LoggingConfig" true [defaulting "maskPasswords" Json.boolean fun v _ => v]

def CredentialVars.decoder : Decoder CredentialVars :=
  record "CredentialsEnv" default
    [required "username" Json.text fun v r => { r with username := v },
     required "password" Json.text fun v r => { r with password := v }]

def RoleSettings.decoder : Decoder RoleSettings :=
  record "RoleConfig" default
    [required "credentialsEnv" CredentialVars.decoder fun v r => { r with credentials := v },
     nullable "oidcOverrides" OidcOverrides.decoder fun v r => { r with overrides := v }]

/-- The roles; of several with one name the last counts. -/
def rolesDecoder : Decoder (List (String × RoleSettings)) := fun depth d =>
  (Json.mapping RoleSettings.decoder depth d).map fun ms =>
    ms.foldl (fun acc m => insertRole m.1 m.2 acc) []

def Settings.decoder : Decoder Settings :=
  record "AuthConfig" {}
    [defaulting "provider" ProviderKind.decoder fun v r => { r with provider := v },
     defaulting "roles" rolesDecoder fun v r => { r with roles := v },
     nullable "oidc" OidcSettings.decoder fun v r => { r with oidc := v },
     nullable "form" FormSettings.decoder fun v r => { r with form := v },
     nullable "token" TokenSettings.decoder fun v r => { r with token := v },
     defaulting "retry" RetryPolicy.decoder fun v r => { r with retry := v },
     defaulting "storageState" StoreSettings.decoder fun v r => { r with store := v },
     defaulting "logging" loggingDecoder fun v r => { r with maskPasswords := v }]

/-! ### Checking -/

/-- What is inconsistent in settings: the section of the provider's kind is missing, the file pattern has no place for
the role, the pattern of an address is none (in the changes of a role, if there is one), the shared section of a kind
is missing, or a custom provider has not been supplied. -/
inductive Inconsistency where
  | noSection (kind : ProviderKind)
  | patternWithoutRole (pattern : String)
  | badPattern (role : Option String)
  | sectionMissing (kind : ProviderKind)
  | notRegistered (role : String)
deriving DecidableEq, Repr

/-- Why settings are not usable. -/
inductive ConfigError where
  | read (path : String) (e : FileError)
  | parse (e : Json.DecodeError)
  | invalid (i : Inconsistency)
deriving DecidableEq, Repr

/-- The wording of an inconsistency; for a pattern of an address without its diagnosis. -/
def Inconsistency.message : Inconsistency → String
  | .noSection kind =>
    "provider is '" ++ kind.name ++ "' but the " ++ kind.name ++ " section is missing"
  | .patternWithoutRole pattern =>
    "storageState.filePattern '" ++ pattern ++ "' must contain \x7brole\x7d"
  | .badPattern none => "success.url regex"
  | .badPattern (some role) => "role '" ++ role ++ "': invalid config: success.url regex"
  | .sectionMissing kind => kind.name ++ " section is missing"
  | .notRegistered role => "provider 'custom' for role '" ++ role ++ "' must be registered in code"

/-- The wording of a failure to load settings, up to its detail. -/
def ConfigError.heading : ConfigError → String
  | .read path _ => "failed to read config " ++ path
  | .parse _ => "failed to parse config"
  | .invalid _ => "invalid config"

namespace Settings

/-- Is the section of the provider's kind there? -/
def hasSection (s : Settings) : Bool :=
  match s.provider with
  | .oidc => s.oidc.isSome
  | .form => s.form.isSome
  | .token => s.token.isSome
  | .custom => true

/-- The roles whose changes hold a pattern of an address that is none, in order. -/
def rolesWithBadPattern (compile : Compiler) (s : Settings) : List String :=
  (s.roles.filter fun r =>
    ((r.2.overrides.bind OidcOverrides.success).any fun c => !c.isUsableBy compile)).map Prod.fst

/-- The first inconsistency, if there is one. -/
def checkBy (compile : Compiler) (s : Settings) : Option Inconsistency :=
  if ¬ s.hasSection then some (.noSection s.provider)
  else if ¬ Text.contains s.store.filePattern "\x7brole\x7d" then
    some (.patternWithoutRole s.store.filePattern)
  else if s.oidc.any fun o => !o.success.isUsableBy compile then some (.badPattern none)
  else
    match s.rolesWithBadPattern compile with
    | role :: _ => some (.badPattern (some role))
    | [] =>
      if s.form.any fun f => !f.success.isUsableBy compile then some (.badPattern none) else none

@[inherit_doc checkBy]
def check (s : Settings) : Option Inconsistency :=
  s.checkBy Pattern.compile?

/-- Read and check settings. -/
def ofReadingBy (compile : Compiler) (r : Json.Reading) : Except ConfigError Settings :=
  match Json.decodeReading Settings.decoder r with
  | .error e => .error (.parse e)
  | .ok s =>
    match s.checkBy compile with
    | some i => .error (.invalid i)
    | none => .ok s

/-- Read and check a document. -/
def ofTextBy (compile : Compiler) (text : String) : Except ConfigError Settings :=
  ofReadingBy compile (Json.readText text)

@[inherit_doc ofTextBy]
def ofText (text : String) : Except ConfigError Settings :=
  ofTextBy Pattern.compile? text

end Settings

/-! ### Writing -/

namespace Json

def ofNat (n : Nat) : Json :=
  .number (.int n)

def ofOption {α : Type} (f : α → Json) : Option α → Json
  | none => .null
  | some a => f a

def fields (ms : List (String × Json)) : Json :=
  .object (.ofList ms)

end Json

def Selectors.toJson (s : Selectors) : Json :=
  Json.fields
    [("username", .string s.username), ("password", .string s.password),
     ("submit", .string s.submit), ("next", .ofOption .string s.next)]

def SelectorOverrides.toJson (s : SelectorOverrides) : Json :=
  Json.fields
    [("username", .ofOption .string s.username), ("password", .ofOption .string s.password),
     ("submit", .ofOption .string s.submit), ("next", .ofOption .string s.next)]

def MfaSettings.toJson (m : MfaSettings) : Json :=
  Json.fields
    [("type", .string m.kind.name), ("totpSecretEnv", .ofOption .string m.secretVar),
     ("totpInputSelector", .ofOption .string m.inputSelector),
     ("totpSubmitSelector", .ofOption .string m.submitSelector),
     ("pushTimeoutMs", .ofOption .ofNat m.pushTimeout)]

def UrlMatch.toJson : UrlMatch → Json
  | .contains fragment => .string fragment
  | .regex pattern => Json.fields [("regex", .string pattern)]

def SuccessCriteria.toJson (c : SuccessCriteria) : Json :=
  Json.fields
    [("url", .ofOption UrlMatch.toJson c.url), ("selector", .ofOption .string c.selector),
     ("timeout", .ofOption .ofNat c.timeout)]

def Timeouts.toJson (t : Timeouts) : Json :=
  Json.fields
    [("loginFlowMs", .ofNat t.loginFlow), ("idpRedirectMs", .ofNat t.idpRedirect),
     ("callbackMs", .ofNat t.callback)]

def LogoutSettings.toJson (l : LogoutSettings) : Json :=
  Json.fields [("url", .string l.url), ("idpLogout", .bool l.idpLogout)]

def Probe.toJson (p : Probe) : Json :=
  Json.fields [("timeoutMs", .ofNat p.timeout), ("pollIntervalMs", .ofNat p.interval)]

def OidcSettings.toJson (o : OidcSettings) : Json :=
  Json.fields
    [("idpType", .string o.idp.name), ("loginUrl", .string o.loginUrl),
     ("idpLoginUrl", .ofOption .string o.idpLoginUrl),
     ("skipIdpRedirect", .bool o.skipIdpRedirect),
     ("idpSelectors", .ofOption SelectorOverrides.toJson o.selectors), ("mfa", o.mfa.toJson),
     ("success", o.success.toJson), ("timeouts", o.timeouts.toJson),
     ("logout", .ofOption LogoutSettings.toJson o.logout), ("probe", o.probe.toJson),
     ("fieldTimeoutMs", .ofNat o.fieldTimeout), ("settleMs", .ofNat o.settle)]

def OidcOverrides.toJson (o : OidcOverrides) : Json :=
  Json.fields
    [("idpType", .ofOption (fun k => .string (IdpKind.name k)) o.idp),
     ("loginUrl", .ofOption .string o.loginUrl), ("idpLoginUrl", .ofOption .string o.idpLoginUrl),
     ("skipIdpRedirect", .ofOption .bool o.skipIdpRedirect),
     ("idpSelectors", .ofOption SelectorOverrides.toJson o.selectors),
     ("mfa", .ofOption MfaSettings.toJson o.mfa),
     ("success", .ofOption SuccessCriteria.toJson o.success),
     ("timeouts", .ofOption Timeouts.toJson o.timeouts),
     ("logout", .ofOption LogoutSettings.toJson o.logout)]

def FormSettings.toJson (f : FormSettings) : Json :=
  Json.fields
    [("loginUrl", .string f.loginUrl), ("usernameSelector", .string f.usernameSelector),
     ("passwordSelector", .string f.passwordSelector),
     ("submitSelector", .string f.submitSelector), ("success", f.success.toJson),
     ("logoutUrl", .ofOption .string f.logoutUrl), ("fieldTimeoutMs", .ofNat f.fieldTimeout),
     ("navigationTimeoutMs", .ofNat f.navigationTimeout), ("probe", f.probe.toJson)]

def TokenSettings.toJson (t : TokenSettings) : Json :=
  Json.fields
    [("endpoint", .string t.endpoint), ("usernameField", .string t.usernameField),
     ("passwordField", .string t.passwordField), ("tokenField", .string t.tokenField),
     ("extraFields", .object t.extraFields), ("headerName", .string t.headerName),
     ("headerPrefix", .string t.headerPrefix), ("storageKey", .string t.storageKey),
     ("timeoutMs", .ofNat t.timeout)]

def RetryPolicy.toJson (r : RetryPolicy) : Json :=
  Json.fields
    [("maxRetries", .ofNat r.maxRetries), ("initialDelayMs", .ofNat r.initialDelay),
     ("backoffMultiplier", .number (.float r.multiplier.toBits)),
     ("maxDelayMs", .ofNat r.maxDelay)]

def StoreSettings.toJson (s : StoreSettings) : Json :=
  Json.fields
    [("directory", .string s.directory), ("maxAgeMinutes", .ofNat s.maxAgeMinutes),
     ("filePattern", .string s.filePattern)]

def RoleSettings.toJson (r : RoleSettings) : Json :=
  Json.fields
    [("credentialsEnv", Json.fields
       [("username", .string r.credentials.username),
        ("password", .string r.credentials.password)]),
     ("oidcOverrides", .ofOption OidcOverrides.toJson r.overrides)]

def Settings.toJson (s : Settings) : Json :=
  Json.fields
    [("provider", .string s.provider.name),
     ("roles", .object (.ofList (s.roles.map fun r => (r.1, r.2.toJson)))),
     ("oidc", .ofOption OidcSettings.toJson s.oidc),
     ("form", .ofOption FormSettings.toJson s.form),
     ("token", .ofOption TokenSettings.toJson s.token), ("retry", s.retry.toJson),
     ("storageState", s.store.toJson),
     ("logging", Json.fields [("maskPasswords", .bool s.maskPasswords)])]

end SignOn
