import SignOn.Idp.Handler
import SignOn.Idp.Family

/-! # The families of identity providers

A `Handler` for each family, and the `Registry` that finds the handler for a family or an
address. -/

namespace SignOn.Idp

/-! ### Keycloak -/

namespace Keycloak

def submit : String := "#kc-login"

/-- The field of a one-time code. -/
def otpInput : String := "#otp"

def pageTitle : String := "#kc-page-title"

/-- Forms for actions that the user has to take. -/
def actionForms : List String :=
  ["#kc-passwd-update-form", "#kc-update-profile-form", "#kc-update-email-form",
   "#kc-totp-settings-form", "#kc-terms-text"]

/-- What the title of a page says, unless it is blank or not to be had. -/
def titleText : Except PageError (Option String) → Option String
  | .ok (some t) => if Text.trim t = "" then none else some (Text.trim t)
  | _ => none

/-- The user has to take an action before the login. -/
def actionRequired (ctx : Context) (title : String) : AuthError :=
  (ctx.failure .callback
      ("Keycloak requires action '" ++ title ++ "' which cannot be completed headlessly")).withRemediation
    ("Log in once interactively as the user of role '" ++ ctx.role ++ "' and complete '" ++ title
      ++ "', or remove the required action in the Keycloak admin console")

/-- An action that the user has to take fails the login: nobody is there to take it. -/
def prompts (ctx : Context) : Attempt Unit := do
  ctx.rest
  let onActionUrl := Text.contains (← Attempt.of Plan.url) "required-action"
  let form ← Attempt.of (Page.firstVisible actionForms)
  if ¬ onActionUrl ∧ form.isNone then
    return
  let shown := titleText (← Attempt.of (Plan.page (.textContent pageTitle)))
  let title := (shown.orElse fun _ => form).getD "unknown"
  Attempt.of (ctx.logger.error
    ("Keycloak required action '" ++ title ++ "' pending for role '" ++ ctx.role ++ "'"))
  throw (actionRequired ctx title)

/-- Keycloak has one page, and one-time codes as second factor. -/
def handler : Handler where
  kind := .keycloak
  selectors := { username := "#username", password := "#password", submit, next := none }
  mfa ctx ch :=
    match ch.mfa.kind with
    | .none => return
    | .totp => submitTotp ctx ch otpInput submit
    | kind => throw (unsupportedMfa ctx .keycloak kind)
  prompts := some prompts

end Keycloak

/-! ### Azure AD -/

namespace AzureAd

def submit : String := "#idSIButton9"

/-- The field of a one-time code. -/
def otpInput : String := "input[name=\"otc\"]"

/-- Marks of the page that offers to stay signed in. -/
def staySignedIn : List String :=
  ["#KmsiCheckboxField", "#KmsiDescription", "input[name=\"DontShowAgain\"]"]

/-- Decline the offer to stay signed in, if it is made. -/
def prompts (ctx : Context) : Attempt Unit := do
  let shown ← Attempt.of do
    if ← Page.waitVisible "#KmsiCheckboxField" ctx.probe then
      return true
    return (← Page.firstVisible staySignedIn).isSome
  if shown then
    Attempt.of (ctx.logger.debug "dismissing Azure AD 'Stay signed in?' prompt")
    ctx.page .callback (.click "#idBtn_Back")
    ctx.rest

/-- Azure AD has two pages; its second factor is a one-time code or a push. -/
def handler : Handler where
  kind := .azureAd
  selectors :=
    { username := "input[name=\"loginfmt\"]", password := "input[name=\"passwd\"]", submit,
      next := some submit }
  mfa ctx ch :=
    match ch.mfa.kind with
    | .none => return
    | .totp => submitTotp ctx ch otpInput "#idSubmit_SAOTCC_Continue"
    | .push => do awaitPush ctx ch (← Attempt.of Page.host)
    | .sms => throw (unsupportedMfa ctx .azureAd .sms)
  prompts := some prompts

end AzureAd

/-! ### Okta -/

namespace Okta

def submit : String := "input[type=\"submit\"], #okta-signin-submit"

/-- The field of a one-time code. -/
def otpInput : String := "input[name=\"credentials.passcode\"], input[name=\"answer\"]"

def sendPush : List String :=
  ["a[data-se=\"okta_verify-push\"]", "input[value=\"Send Push\"]"]

/-- Okta has two pages; its second factor is a one-time code or a push, which may have to be
sent. -/
def handler : Handler where
  kind := .okta
  selectors :=
    { username := "input[name=\"identifier\"], #okta-signin-username"
      password := "input[name=\"credentials.passcode\"], #okta-signin-password"
      submit, next := some submit }
  mfa ctx ch :=
    match ch.mfa.kind with
    | .none => return
    | .totp => submitTotp ctx ch otpInput "input[type=\"submit\"]"
    | .push => do
      let host ← Attempt.of Page.host
      if let some button := ← Attempt.of (Page.firstVisible sendPush) then
        ctx.page .mfa (.click button)
      awaitPush ctx ch host
    | .sms => throw (unsupportedMfa ctx .okta .sms)

end Okta

/-! ### Others -/

namespace Generic

def submit : String :=
  "button[type=\"submit\"], input[type=\"submit\"], button[name=\"login\"], button[id=\"login\"]"

/-- The field of a one-time code. -/
def otpInput : String :=
  "input[name=\"otp\"], input[name=\"totp\"], input[name=\"code\"], "
    ++ "input[autocomplete=\"one-time-code\"]"

/-- Fields by the names that are common for them, and one-time codes as second factor. -/
def handler : Handler where
  kind := .generic
  selectors :=
    { username := "input[name=\"username\"], input[name=\"email\"], input[type=\"email\"], "
        ++ "input[name=\"login\"], input[id=\"username\"], input[id=\"email\"]"
      password := "input[name=\"password\"], input[type=\"password\"], input[id=\"password\"]"
      submit, next := none }
  mfa ctx ch :=
    match ch.mfa.kind with
    | .none => return
    | .totp => submitTotp ctx ch otpInput submit
    | kind => throw (unsupportedMfa ctx .generic kind)

end Generic

/-! ### Finding a handler -/

/-- Handlers by their family; the first one of a family counts. -/
structure Registry where
  handlers : List Handler := [Keycloak.handler, AzureAd.handler, Okta.handler, Generic.handler]

namespace Registry

/-- Add a handler, in place of an earlier one of its family. -/
def register (r : Registry) (h : Handler) : Registry :=
  { r with handlers := h :: r.handlers }

/-- The handler of a family; the common one if there is none. -/
def get (r : Registry) (kind : IdpKind) : Handler :=
  (r.handlers.find? fun h => h.kind = kind).getD Generic.handler

def forUrl (r : Registry) (address : String) : Handler :=
  r.get (.detect address)

end Registry

end SignOn.Idp
