import SignOn.Attempt
import SignOn.Credentials
import SignOn.Page.Look
import SignOn.Totp.Engine

/-! # Signing on at an identity provider

What every family of identity providers does in the same way: entering credentials on one page or
two, submitting the form, entering a one-time code, and waiting for the approval of a push.

* `Handler` is what differs between families.
* `fillCredentials` and `submitForm` are shared by all of them. -/

namespace SignOn.Idp

/-- What a handler needs to know besides credentials and selectors. -/
structure Context where
  role : String
  fieldTimeout : Nat
  settle : Nat
  probe : Probe
  totp : Totp.Engine
  logger : Logger
deriving DecidableEq, Repr, Inhabited

namespace Context

/-- A failure of the role in a phase. -/
def failure (ctx : Context) (phase : AuthPhase) (message : String) : AuthError :=
  { message, role := ctx.role, phase }

def page (ctx : Context) (phase : AuthPhase) (c : PageCall) : Attempt c.Value :=
  Attempt.page ctx.role phase c

def rest (ctx : Context) : Attempt Unit :=
  .of (Plan.settle ctx.settle)

end Context

/-- A second factor that is asked for: its settings, and the secret of one-time codes. -/
structure Challenge where
  mfa : MfaSettings
  secret : Option String
deriving DecidableEq, Repr, Inhabited

/-- How to deal with a family of identity providers: where the fields of its form are, how the challenge of a second
factor is answered, and what to do about prompts behind the login, if there are any. -/
structure Handler where
  kind : IdpKind
  selectors : Selectors
  mfa : Context → Challenge → Attempt Unit
  prompts : Option (Context → Attempt Unit) := none

/-- What became of a submitted form.  If an empty password field shows, the form has a second page. -/
inductive Submission where
  | submitted
  | passwordRequired
deriving DecidableEq, Repr, Inhabited

/-- Enter credentials: on one page if the password field shows, on two otherwise. -/
def fillCredentials (ctx : Context) (c : Credentials) (s : Selectors) : Attempt Unit := do
  ctx.page .credentials (.waitForSelector s.username ctx.fieldTimeout)
  ctx.page .credentials (.fill s.username c.username)
  if ← Attempt.of (Page.waitVisible s.password ctx.probe) then
    Attempt.of (ctx.logger.debug "password field visible, single-page login")
  else
    Attempt.of (ctx.logger.debug "password field hidden, submitting username first")
    ctx.page .credentials (.click s.nextOrSubmit)
    ctx.page .credentials (.waitForSelector s.password ctx.fieldTimeout)
  ctx.page .credentials (.fill s.password c.password)

/-- Is there an empty field?  A failure of the page counts as no. -/
def isEmptyField (selector : String) : Plan Bool := do
  match ← Plan.page (.inputValue selector) with
  | .ok (value : String) => return value = ""
  | .error _ => return false

/-- Submit the form and look whether an empty password field shows. -/
def submitForm (ctx : Context) (s : Selectors) : Attempt Submission := do
  ctx.page .credentials (.click s.submit)
  ctx.rest
  if ← Attempt.of (Page.sees s.password) then
    if ← Attempt.of (isEmptyField s.password) then
      Attempt.of (ctx.logger.debug "empty password field after submit, continuing two-step flow")
      return .passwordRequired
  return .submitted

/-- Seconds that the window of a code has to last at least when the code is used. -/
def freshness : Nat := 5

/-- A one-time code is asked for, and there is no secret to make it from. -/
def noSecret (ctx : Context) : AuthError :=
  (ctx.failure .mfa "TOTP MFA is configured but no secret was resolved").withRemediation
    ("Set mfa.totpSecretEnv for role '" ++ ctx.role ++ "' and export that variable")

/-- Make the code of now, and enter and submit it. -/
def enterCode (ctx : Context) (secret input submit : String) : Attempt Unit := do
  match ← Attempt.of (ctx.totp.generate secret) with
  | .error e => throw (.ofMfa ctx.role e)
  | .ok code =>
    ctx.page .mfa (.fill input code)
    ctx.page .mfa (.click submit)
    ctx.rest
    Attempt.of (ctx.logger.info ("submitted TOTP code for role '" ++ ctx.role ++ "'"))

/-- Enter and submit a one-time code, one that lasts for a while yet. -/
def submitTotp (ctx : Context) (ch : Challenge) (input submit : String) : Attempt Unit := do
  match ch.secret with
  | none => throw (noSecret ctx)
  | some secret =>
    let input := ch.mfa.inputSelector.getD input
    let submit := ch.mfa.submitSelector.getD submit
    ctx.page .mfa (.waitForSelector input ctx.fieldTimeout)
    if ← Attempt.of (ctx.totp.waitForFresh freshness) then
      Attempt.of (ctx.logger.debug "waited for a fresh TOTP window")
    enterCode ctx secret input submit

/-- The push is not approved in time. -/
def pushTimeout (ctx : Context) (timeout : Nat) : AuthError :=
  (ctx.failure .mfa ("timeout of " ++ toString timeout
      ++ "ms exceeded waiting for push approval")).withRemediation
    ("Approve the push notification on the enrolled device, or configure TOTP for automated "
      ++ "runs")

/-- Look every `interval` milliseconds whether the page has left a host; `fuel` bounds the looks. -/
def awaitLeaving (ctx : Context) (host : Option String) (timeout interval deadline : Nat) :
    (fuel : Nat) → Attempt Unit
  | 0 => throw (pushTimeout ctx timeout)
  | fuel + 1 => do
    if (← Attempt.of Page.host) ≠ host then
      return
    if (← Attempt.of Plan.clock) ≥ deadline then
      throw (pushTimeout ctx timeout)
    Attempt.of (Plan.sleep interval)
    awaitLeaving ctx host timeout interval deadline fuel

/-- Wait until the page leaves the host that shows the challenge: the push is approved then. -/
def awaitPush (ctx : Context) (ch : Challenge) (host : Option String) : Attempt Unit := do
  let timeout := ch.mfa.pushTimeoutMs
  let start ← Attempt.of Plan.clock
  Attempt.of (ctx.logger.info ("waiting up to " ++ toString timeout
    ++ "ms for push approval for role '" ++ ctx.role ++ "'"))
  awaitLeaving ctx host timeout (max ctx.probe.interval 1) (start + timeout) (timeout + 2)

/-- A kind of second factor that a family does not allow for. -/
def unsupportedMfa (ctx : Context) (kind : IdpKind) (mfa : MfaKind) : AuthError :=
  (ctx.failure .mfa ("MFA type '" ++ mfa.name ++ "' is not supported for " ++ kind.name)).withRemediation
    ("Configure TOTP instead of " ++ Text.upper mfa.name ++ " for role '" ++ ctx.role
      ++ "' (mfa.type = \"totp\")")

end SignOn.Idp
