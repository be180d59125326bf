import SignOn.Idp.Families

/-! # The login at an identity provider

A login goes through steps in a fixed order, each only if the one before succeeded, all of them
within one time limit.

* `Flow.Step` are the steps; each belongs to a phase, which its failures are reported for.
* `Flow.opening` are the steps up to the page of the identity provider, `Flow.steps` those from
  there on; which are taken depends on the settings and on the handler.
* `runSteps` takes the steps and tells which one was entered last.
* `Flow.execute` is one login: on failure it looks for a banner that says why. -/

namespace SignOn

/-- What a login ends with, and how many milliseconds it took. -/
structure SignedOn where
  finalUrl : String
  duration : Nat
deriving DecidableEq, Repr, Inhabited

/-- The end of a login that started at a time. -/
def SignedOn.since (start : Nat) : Plan SignedOn := do
  let finalUrl ← Plan.url
  return { finalUrl, duration := (← Plan.clock) - start }

/-- A failed step, with the banner on the page as its reason if there is one. -/
def withBanner (e : AuthError) : Plan AuthError := do
  match ← Page.detectError with
  | some text => return if e.idpResponse.isNone then e.withIdpResponse text else e
  | none => return e

namespace Flow

/-- The steps of a login. -/
inductive Step where
  | navigate
  | waitForIdpRedirect
  | fillCredentials
  | submitForm
  | mfa
  | postLoginPrompts
  | waitForSuccess
  | done
deriving DecidableEq, Repr, Inhabited

namespace Step

def all : List Step :=
  [.navigate, .waitForIdpRedirect, .fillCredentials, .submitForm, .mfa, .postLoginPrompts,
   .waitForSuccess, .done]

def name : Step → String
  | .navigate => "navigate"
  | .waitForIdpRedirect => "waitForIdpRedirect"
  | .fillCredentials => "fillCredentials"
  | .submitForm => "submitForm"
  | .mfa => "mfa"
  | .postLoginPrompts => "postLoginPrompts"
  | .waitForSuccess => "waitForSuccess"
  | .done => "done"

/-- The name of a step as a title. -/
def title : Step → String
  | .navigate => "Navigate"
  | .waitForIdpRedirect => "WaitForIdpRedirect"
  | .fillCredentials => "FillCredentials"
  | .submitForm => "SubmitForm"
  | .mfa => "Mfa"
  | .postLoginPrompts => "PostLoginPrompts"
  | .waitForSuccess => "WaitForSuccess"
  | .done => "Done"

def phase : Step → AuthPhase
  | .navigate => .navigation
  | .waitForIdpRedirect => .navigation
  | .fillCredentials => .credentials
  | .submitForm => .credentials
  | .mfa => .mfa
  | .postLoginPrompts => .callback
  | .waitForSuccess => .callback
  | .done => .callback

end Step

/-- The time limit of a login, as a time and, for messages, in milliseconds from the start. -/
structure Deadline where
  at_ : Nat
  limit : Nat
deriving DecidableEq, Repr

/-- The failure of a step that the time limit cuts off. -/
def Deadline.failure (d : Deadline) (role : String) (step : Step) : AuthError :=
  .ofPage role step.phase (.timeout "the login flow" d.limit)

/-- Take one step within the time limit. -/
def bounded {α : Type} (d : Deadline) (role : String) (step : Step) (p : Attempt α) : Attempt α :=
  ExceptT.mk do
    match ← Plan.within d.at_ p.run with
    | some r => return r
    | none => return .error (d.failure role step)

/-- Take steps one after the other up to the first that fails; also the step entered last. -/
def runSteps (d : Deadline) (role : String) (last : Step) :
    List (Step × Attempt Unit) → Plan (Step × Except AuthError Unit)
  | [] => return (last, .ok ())
  | (step, p) :: rest => do
    match ← (bounded d role step p).run with
    | .error e => return (step, .error e)
    | .ok () => runSteps d role step rest

end Flow

/-- A login at an identity provider. -/
structure Flow where
  settings : OidcSettings
  registry : Idp.Registry
  logger : Logger

namespace Flow

/-- The engine of one-time codes of a login. -/
def totp (f : Flow) : Totp.Engine :=
  { logger := f.logger.child "totp" }

/-- The steps up to the page of the identity provider. -/
def opening (f : Flow) (role : String) : List (Step × Attempt Unit) :=
  let limit := f.settings.timeouts.idpRedirect
  let page := Attempt.page role .navigation
  (.navigate, page (.goto f.settings.loginUrl limit)) ::
    if f.settings.skipIdpRedirect then []
    else
      [(.waitForIdpRedirect,
        match f.settings.idpLoginUrl with
        | some url => page (.waitForUrl (.contains url) limit)
        | none => page (.waitForLoadState .domContentLoaded limit))]

/-- The handler for the page that the login has been sent to. -/
def handlerFor (f : Flow) (address : String) : Idp.Handler :=
  match f.settings.idp with
  | .auto => f.registry.forUrl address
  | kind => f.registry.get kind

/-- The elements of the form, with the changes of the settings. -/
def selectorsFor (f : Flow) (h : Idp.Handler) : Selectors :=
  match f.settings.selectors with
  | some o => o.apply h.selectors
  | none => h.selectors

/-- What the handler needs to know. -/
def context (f : Flow) (role : String) : Idp.Context where
  role := role
  fieldTimeout := f.settings.fieldTimeout
  settle := f.settings.settle
  probe := f.settings.probe
  totp := f.totp
  logger := f.logger.child "idp"

/-- The settings name no variable for the secret of one-time codes. -/
def secretUnnamed (role : String) : AuthError :=
  ({ message := "mfa.totpSecretEnv is not configured", role, phase := .mfa } : AuthError).withRemediation
    ("Set mfa.totpSecretEnv in the oidc overrides of role '" ++ role ++ "'")

/-- The secret of one-time codes, where they are the second factor. -/
def secret (f : Flow) (role : String) : Attempt (Option String) := do
  if f.settings.mfa.kind ≠ .totp then
    return none
  match f.settings.mfa.secretVar with
  | none => throw (secretUnnamed role)
  | some envVar =>
    match ← Attempt.of (Totp.secretFromEnv envVar) with
    | .ok s => return some s
    | .error e => throw (.ofMfa role e)

/-- Submit the form; where an empty password field shows, fill it and submit once more. -/
def submit (ctx : Idp.Context) (c : Credentials) (s : Selectors) : Attempt Unit := do
  if (← Idp.submitForm ctx s) = .passwordRequired then
    ctx.page .credentials (.fill s.password c.password)
    let _ ← Idp.submitForm ctx s

/-- Answer the challenge of the second factor. -/
def answerMfa (f : Flow) (h : Idp.Handler) (role : String) : Attempt Unit := do
  let secret ← f.secret role
  h.mfa (f.context role) ⟨f.settings.mfa, secret⟩

/-- Wait for the page behind the login. -/
def awaitSuccess (f : Flow) (role : String) : Attempt Unit :=
  ExceptT.mk do
    let timeout := f.settings.success.timeout.getD f.settings.timeouts.callback
    match ← Page.waitForSuccess f.settings.success timeout with
    | .ok () => return .ok ()
    | .error e => return .error (.ofPage role .callback e)

/-- The steps from the page of the identity provider on. -/
def steps (f : Flow) (h : Idp.Handler) (role : String) (c : Credentials) :
    List (Step × Attempt Unit) :=
  let ctx := f.context role
  let s := f.selectorsFor h
  let mfa : List (Step × Attempt Unit) :=
    if f.settings.mfa.kind = .none then [] else [(.mfa, f.answerMfa h role)]
  let prompts : List (Step × Attempt Unit) :=
    match h.prompts with
    | some prompts => [(.postLoginPrompts, prompts ctx)]
    | none => []
  (.fillCredentials, Idp.fillCredentials ctx c s) :: (.submitForm, submit ctx c s)
    :: (mfa ++ prompts ++ [(.waitForSuccess, f.awaitSuccess role)])

/-- All steps: those up to the page of the identity provider, then those for its handler. -/
def run (f : Flow) (role : String) (c : Credentials) (d : Deadline) :
    Plan (Step × Except AuthError Unit) := do
  match ← runSteps d role .navigate (f.opening role) with
  | (step, .error e) => return (step, .error e)
  | (step, .ok ()) =>
    let h := f.handlerFor (← Plan.url)
    f.logger.debug ("using " ++ h.kind.name ++ " handler for role '" ++ role ++ "'")
    runSteps d role step (f.steps h role c)

/-- The end of a login that started at a time: the page it has led to, or the failure of a step, with the
banner on the page as its reason if there is one. -/
def conclude (f : Flow) (role : String) (start : Nat) :
    Step × Except AuthError Unit → Plan (Except AuthError SignedOn)
  | (_, .ok ()) => do
    let result ← SignedOn.since start
    f.logger.info ("login for role '" ++ role ++ "' completed in " ++ toString result.duration
      ++ "ms at " ++ result.finalUrl)
    return .ok result
  | (step, .error e) => do
    let e ← if e.idpResponse.isNone then withBanner e else pure e
    f.logger.error ("login for role '" ++ role ++ "' failed at step " ++ step.title
      ++ " after " ++ toString ((← Plan.clock) - start) ++ "ms: " ++ e.message)
    return .error e

/-- One login. -/
def execute (f : Flow) (role : String) (c : Credentials) : Attempt SignedOn :=
  ExceptT.mk do
    let start ← Plan.clock
    f.logger.info ("starting OIDC login for role '" ++ role ++ "' as " ++ c.username)
    let limit := f.settings.timeouts.loginFlow
    f.conclude role start (← f.run role c ⟨start + limit, limit⟩)

/-- Does the page already show a session? -/
def isSessionValid (f : Flow) : Plan Bool :=
  Page.sessionMatches f.settings.success f.settings.probe

end Flow

end SignOn
