import SignOn.Flow
import SignOn.Proofs.Worlds

/-! # What a sign-on enters, and what it blames

* `Request.Enters F` bounds what is entered into the fields of the page, and excludes all requests to
  files and servers; `Request.EntersBlindly F` excludes reading a field back as well.
* `Idp.Cause` are the reasons for which a step of a login fails; `Idp.Blames` says that a failure is the
  one of a cause, for the role and in a phase.
* Every part of a step obeys both bounds, whatever the page and the time do: `obeys_fillCredentials`,
  `obeys_submitForm`, and for each family `obeys_mfa` and `obeys_prompts`. -/

namespace SignOn

/-- Requests that enter only what `F` allows for a field, and reach no file and no server. -/
def Request.Enters (F : String → String → Prop) : Request → Prop
  | .page (.fill selector value) => F selector value
  | .file _ | .post _ => False
  | _ => True

theorem Request.Enters.leavesFiles {F : String → String → Prop} {r : Request} (h : r.Enters F) :
    r.LeavesFiles := by
  cases r with
  | file op => exact h.elim
  | _ => trivial

theorem Request.Enters.mono {F G : String → String → Prop} (hFG : ∀ s v, F s v → G s v) {r : Request}
    (h : r.Enters F) : r.Enters G := by
  cases r with
  | page c => cases c <;> first | exact hFG _ _ h | trivial
  | file | post => exact h.elim
  | _ => trivial

/-- Requests that read no field back. -/
def Request.Blind : Request → Prop
  | .page (.inputValue _) => False
  | _ => True

/-- Requests that enter only what `F` allows for a field and read no field back, and reach no file and no
server. -/
def Request.EntersBlindly (F : String → String → Prop) : Request → Prop
  | .page (.inputValue _) => False
  | r => r.Enters F

namespace Request.EntersBlindly

variable {F : String → String → Prop} {r : Request}

theorem enters (h : r.EntersBlindly F) : r.Enters F := by
  cases r with
  | page c => cases c <;> first | exact h | trivial
  | _ => exact h

theorem blind (h : r.EntersBlindly F) : r.Blind := by
  cases r with
  | page c => cases c <;> first | exact h.elim | trivial
  | _ => trivial

end Request.EntersBlindly

/-- Requests that look for an element, at the address or at the clock, and naps between the looks. -/
def Request.Peeks : Request → Prop
  | .page (.isVisible _) | .url | .clock | .sleep _ => True
  | _ => False

theorem Request.Peeks.entersBlindly {F : String → String → Prop} {r : Request} (h : r.Peeks) : r.EntersBlindly F := by
  cases r with
  | page c => cases c <;> first | exact h.elim | trivial
  | url | clock | sleep => trivial
  | _ => exact h.elim

theorem Plan.Obeys.enters {F : String → String → Prop} {α : Type} {Q : α → Prop} {p : Plan α}
    (h : p.Obeys (Request.EntersBlindly F) Q) : p.Obeys (Request.Enters F) Q :=
  h.mono (fun _ => Request.EntersBlindly.enters) fun _ => id

theorem Attempt.Obeys.enters {F : String → String → Prop} {α : Type} {E : AuthError → Prop} {p : Attempt α}
    (h : p.Obeys (Request.EntersBlindly F) E) : p.Obeys (Request.Enters F) E :=
  h.mono (fun _ => Request.EntersBlindly.enters) fun _ => id

/-! ### Causes of failures -/

namespace Idp

/-- Why a step of a login fails; `deadline` is the time limit of the login. -/
inductive Cause where
  | page (e : PageError)
  | deadline (limit : Nat)
  | secretUnnamed
  | oneTimeCode (e : MfaError)
  | noSecret
  | unsupported (kind : IdpKind) (mfa : MfaKind)
  | pushTimeout (timeout : Nat)
  | actionRequired (title : String)
deriving DecidableEq, Repr

/-- The failure of a cause in a phase. -/
def Cause.failure (ctx : Context) (phase : AuthPhase) : Cause → AuthError
  | .page e => .ofPage ctx.role phase e
  | .deadline limit => .ofPage ctx.role phase (.timeout "the login flow" limit)
  | .secretUnnamed => Flow.secretUnnamed ctx.role
  | .oneTimeCode e => .ofMfa ctx.role e
  | .noSecret => Idp.noSecret ctx
  | .unsupported kind mfa => unsupportedMfa ctx kind mfa
  | .pushTimeout timeout => Idp.pushTimeout ctx timeout
  | .actionRequired title => Keycloak.actionRequired ctx title

/-- The failure is the one of a cause, for the role and in the phase. -/
def Blames (ctx : Context) (phase : AuthPhase) (e : AuthError) : Prop :=
  e.role = ctx.role ∧ e.phase = phase ∧ ∃ cause : Cause, e = cause.failure ctx phase

theorem blames_page (ctx : Context) (phase : AuthPhase) (e : PageError) :
    Blames ctx phase (.ofPage ctx.role phase e) := ⟨rfl, rfl, .page e, rfl⟩

theorem blames_noSecret (ctx : Context) : Blames ctx .mfa (noSecret ctx) :=
  ⟨rfl, rfl, .noSecret, rfl⟩

theorem blames_oneTimeCode (ctx : Context) (e : MfaError) : Blames ctx .mfa (.ofMfa ctx.role e) :=
  ⟨rfl, rfl, .oneTimeCode e, rfl⟩

theorem blames_unsupported (ctx : Context) (kind : IdpKind) (mfa : MfaKind) :
    Blames ctx .mfa (unsupportedMfa ctx kind mfa) := ⟨rfl, rfl, .unsupported kind mfa, rfl⟩

theorem blames_pushTimeout (ctx : Context) (timeout : Nat) :
    Blames ctx .mfa (pushTimeout ctx timeout) := ⟨rfl, rfl, .pushTimeout timeout, rfl⟩

theorem blames_actionRequired (ctx : Context) (title : String) :
    Blames ctx .callback (Keycloak.actionRequired ctx title) := ⟨rfl, rfl, .actionRequired title, rfl⟩

end Idp

variable {F : String → String → Prop}

/-! ### Looking at the page -/

namespace Page

theorem obeys_sees {A : Request → Prop} {selector : String} (h : A (.page (.isVisible selector))) :
    (sees selector).Obeys A fun _ => True := by
  refine Plan.obeys_ask h fun r => ?_
  match r with
  | .ok true => exact trivial
  | .ok false => exact trivial
  | .error _ => exact trivial

theorem peeks_waitVisibleUntil (selector : String) (interval deadline fuel : Nat) :
    (waitVisibleUntil selector interval deadline fuel).Obeys Request.Peeks fun _ => True := by
  induction fuel with
  | zero => exact trivial
  | succ fuel ih =>
      rw [waitVisibleUntil]
      refine (obeys_sees trivial).bind fun seen _ => ?_
      split
      · exact trivial
      · refine Plan.obeys_ask trivial fun now => ?_
        split
        · exact trivial
        · exact Plan.obeys_ask trivial fun _ => ih

theorem peeks_waitVisible (selector : String) (probe : Probe) :
    (waitVisible selector probe).Obeys Request.Peeks fun _ => True :=
  Plan.obeys_ask trivial fun _ => peeks_waitVisibleUntil selector _ _ _

theorem obeys_waitVisible (selector : String) (probe : Probe) :
    (waitVisible selector probe).Obeys (Request.EntersBlindly F) fun _ => True :=
  (peeks_waitVisible selector probe).mono (fun _ => Request.Peeks.entersBlindly) fun _ => id

theorem obeys_firstVisible (selectors : List String) :
    (firstVisible selectors).Obeys (Request.EntersBlindly F) fun _ => True := by
  induction selectors with
  | nil => exact trivial
  | cons s rest ih =>
      rw [firstVisible]
      refine (obeys_sees trivial).bind fun seen _ => ?_
      split
      · exact trivial
      · exact ih

theorem obeys_host : host.Obeys (Request.EntersBlindly F) fun _ => True :=
  Plan.obeys_ask trivial fun _ => trivial

theorem obeys_waitForSuccess (c : SuccessCriteria) (timeout : Nat) :
    (waitForSuccess c timeout).Obeys (Request.EntersBlindly F) fun _ => True := by
  unfold waitForSuccess
  split <;> exact Plan.obeys_request trivial fun _ => trivial

theorem peeks_sessionMatches (c : SuccessCriteria) (probe : Probe) :
    (sessionMatches c probe).Obeys Request.Peeks fun _ => True := by
  unfold sessionMatches
  split
  · exact trivial
  · dsimp only
    split
    · refine Plan.obeys_ask trivial fun address => ?_
      split
      · exact trivial
      · cases c.selector with
        | none => exact trivial
        | some s => exact peeks_waitVisible s probe
    · cases c.selector with
      | none => exact trivial
      | some s => exact peeks_waitVisible s probe

theorem obeys_sessionMatches (c : SuccessCriteria) (probe : Probe) :
    (sessionMatches c probe).Obeys (Request.EntersBlindly F) fun _ => True :=
  (peeks_sessionMatches c probe).mono (fun _ => Request.Peeks.entersBlindly) fun _ => id

theorem obeys_detectErrorIn {A : Request → Prop} {selectors : List String}
    (h : ∀ s ∈ selectors, A (.page (.isVisible s)) ∧ A (.page (.textContent s))) :
    (detectErrorIn selectors).Obeys A fun _ => True := by
  induction selectors with
  | nil => exact trivial
  | cons s rest ih =>
      obtain ⟨hvisible, htext⟩ := h s List.mem_cons_self
      have ih := ih fun t ht => h t (List.mem_cons_of_mem s ht)
      rw [detectErrorIn]
      refine (obeys_sees hvisible).bind fun seen _ => ?_
      dsimp only
      split
      · refine Plan.obeys_ask htext fun r => ?_
        match r with
        | .ok (some text) =>
            dsimp only
            generalize Text.trim text = trimmed
            split
            · exact trivial
            · exact ih
        | .ok none => exact ih
        | .error _ => exact ih
      · exact ih

end Page

/-! ### One-time codes -/

namespace Totp

theorem obeys_waitForFresh (engine : Engine) (threshold : Nat) :
    (engine.waitForFresh threshold).Obeys (Request.EntersBlindly F) fun _ => True := by
  have hleft : engine.millisLeft.Obeys (Request.EntersBlindly F) fun _ => True := by
    refine Plan.obeys_ask trivial fun wall => ?_
    split <;> exact trivial
  refine hleft.bind fun left _ => ?_
  split
  · exact trivial
  · exact Plan.obeys_ask trivial fun _ => Plan.obeys_ask trivial fun _ => trivial

theorem obeys_generate (engine : Engine) (secret : String) :
    (engine.generate secret).Obeys (Request.EntersBlindly F) fun _ => True := by
  refine Plan.obeys_ask trivial fun wall => ?_
  split <;> exact trivial

theorem obeys_secretFromEnv (envVar : String) :
    (secretFromEnv envVar).Obeys (Request.EntersBlindly F) fun _ => True := by
  refine Plan.Obeys.bind (Plan.obeys_ask (Q := fun _ => True) trivial fun _ => trivial) fun value _ => ?_
  cases value <;> exact trivial

end Totp

/-! ### Entering credentials -/

namespace Idp

variable {E : AuthError → Prop} {ctx : Context}

theorem obeys_call {A : Request → Prop} {phase : AuthPhase} {call : PageCall} (hA : A (.page call)) :
    (ctx.page phase call).Obeys A (Blames ctx phase) :=
  Attempt.obeys_page hA (blames_page ctx phase)

theorem obeys_call_bind {A : Request → Prop} {α : Type} {phase : AuthPhase} {call : PageCall}
    {f : call.Value → Attempt α} (hA : A (.page call)) (hf : ∀ v, (f v).Obeys A (Blames ctx phase)) :
    (ctx.page phase call >>= f).Obeys A (Blames ctx phase) :=
  (obeys_call hA).bind hf

theorem obeys_rest {A : Request → Prop} (h : ∀ ms, A (.sleep ms)) : ctx.rest.Obeys A E := by
  refine Attempt.obeys_of (Q := fun _ => True) ?_
  unfold Plan.settle
  split
  · exact trivial
  · exact Plan.obeys_request (h _) fun _ => trivial

/-- The credentials are entered into their own fields. -/
theorem obeys_fillCredentials {c : Credentials} {s : Selectors} (hu : F s.username c.username)
    (hp : F s.password c.password) :
    (fillCredentials ctx c s).Obeys (Request.Enters F) (Blames ctx .credentials) := by
  unfold fillCredentials
  refine obeys_call_bind trivial fun _ => ?_
  refine obeys_call_bind hu fun _ => ?_
  refine Attempt.obeys_of_bind (Page.obeys_waitVisible _ _).enters fun visible => ?_
  dsimp only
  split
  · exact Attempt.obeys_request_bind trivial fun _ => obeys_call hp
  · refine Attempt.obeys_request_bind trivial fun _ => ?_
    refine obeys_call_bind trivial fun _ => ?_
    exact obeys_call_bind trivial fun _ => obeys_call hp

theorem obeys_isEmptyField {A : Request → Prop} {selector : String} (h : A (.page (.inputValue selector))) :
    (isEmptyField selector).Obeys A fun _ => True := by
  refine Plan.obeys_ask h fun r => ?_
  cases r <;> exact trivial

theorem obeys_submitForm (s : Selectors) :
    (submitForm ctx s).Obeys (Request.Enters F) (Blames ctx .credentials) := by
  unfold submitForm
  refine obeys_call_bind trivial fun _ => ?_
  refine (obeys_rest fun _ => trivial).bind fun _ => ?_
  refine Attempt.obeys_of_bind (Page.obeys_sees trivial) fun seen => ?_
  dsimp only
  split
  · refine Attempt.obeys_of_bind (obeys_isEmptyField trivial) fun empty => ?_
    split
    · exact Attempt.obeys_request_bind trivial fun _ => Attempt.obeys_pure _
    · exact Attempt.obeys_pure _
  · exact Attempt.obeys_pure _

/-! ### Second factors -/

theorem obeys_enterCode (secret : String) {input submit : String} (hF : ∀ code, F input code) :
    (enterCode ctx secret input submit).Obeys (Request.EntersBlindly F) (Blames ctx .mfa) := by
  unfold enterCode
  refine Attempt.obeys_of_bind (Totp.obeys_generate _ secret) fun r => ?_
  cases r with
  | error e => exact Attempt.obeys_throw (blames_oneTimeCode ctx e)
  | ok code =>
      refine obeys_call_bind (hF code) fun _ => ?_
      refine obeys_call_bind trivial fun _ => ?_
      refine (obeys_rest fun _ => trivial).bind fun _ => ?_
      exact Attempt.obeys_of (Plan.obeys_request trivial fun _ => trivial)

theorem obeys_submitTotp (ch : Challenge) (input submit : String)
    (hF : ∀ code, F (ch.mfa.inputSelector.getD input) code) :
    (submitTotp ctx ch input submit).Obeys (Request.EntersBlindly F) (Blames ctx .mfa) := by
  unfold submitTotp
  split
  · exact Attempt.obeys_throw (blames_noSecret ctx)
  · dsimp only
    refine obeys_call_bind trivial fun _ => ?_
    refine Attempt.obeys_of_bind (Totp.obeys_waitForFresh _ _) fun waited => ?_
    split
    · exact Attempt.obeys_request_bind trivial fun _ => obeys_enterCode _ hF
    · exact obeys_enterCode _ hF

theorem obeys_awaitLeaving (host : Option String) (timeout interval deadline fuel : Nat) :
    (awaitLeaving ctx host timeout interval deadline fuel).Obeys (Request.EntersBlindly F) (Blames ctx .mfa) := by
  induction fuel with
  | zero => exact Attempt.obeys_throw (blames_pushTimeout ctx timeout)
  | succ fuel ih =>
      rw [awaitLeaving]
      refine Attempt.obeys_of_bind Page.obeys_host fun now => ?_
      split
      · exact Attempt.obeys_pure _
      · refine Attempt.obeys_request_bind trivial fun time => ?_
        split
        · exact Attempt.obeys_throw (blames_pushTimeout ctx timeout)
        · exact Attempt.obeys_request_bind trivial fun _ => ih

theorem obeys_awaitPush (ch : Challenge) (host : Option String) :
    (awaitPush ctx ch host).Obeys (Request.EntersBlindly F) (Blames ctx .mfa) := by
  unfold awaitPush
  refine Attempt.obeys_request_bind trivial fun start => ?_
  exact Attempt.obeys_request_bind trivial fun _ => obeys_awaitLeaving host _ _ _ _

/-! ### Families -/

/-- A handler of one of the four families. -/
def Handler.BuiltIn (h : Handler) : Prop :=
  h ∈ ({} : Registry).handlers

theorem Handler.BuiltIn.cases {h : Handler} (hh : h.BuiltIn) :
    h = Keycloak.handler ∨ h = AzureAd.handler ∨ h = Okta.handler ∨ h = Generic.handler := by
  simpa [BuiltIn] using hh

theorem builtIn_generic : Generic.handler.BuiltIn :=
  List.mem_of_getElem? (i := 3) rfl

/-- What holds of the handlers that are registered and of the common one holds of every handler found. -/
theorem Registry.get_of {P : Handler → Prop} {r : Registry} (hr : ∀ h ∈ r.handlers, P h)
    (hgeneric : P Generic.handler) (kind : IdpKind) : P (r.get kind) := by
  unfold get
  cases hfind : r.handlers.find? fun h => h.kind = kind with
  | none => exact hgeneric
  | some h => exact hr h (List.mem_of_find?_eq_some hfind)

/-- The field that a family expects a code in. -/
def codeField : IdpKind → String
  | .keycloak => Keycloak.otpInput
  | .azureAd => AzureAd.otpInput
  | .okta => Okta.otpInput
  | _ => Generic.otpInput

/-- A second factor enters codes alone, and only where codes are asked for. -/
theorem obeys_mfa {h : Handler} (hh : h.BuiltIn) (ch : Challenge)
    (hF : ch.mfa.kind = .totp → ∀ code, F (ch.mfa.inputSelector.getD (codeField h.kind)) code) :
    (h.mfa ctx ch).Obeys (Request.EntersBlindly F) (Blames ctx .mfa) := by
  have hunsupported : ∀ kind mfa, (throw (unsupportedMfa ctx kind mfa) : Attempt Unit).Obeys
      (Request.EntersBlindly F) (Blames ctx .mfa) := fun kind mfa =>
    Attempt.obeys_throw (blames_unsupported ctx kind mfa)
  rcases hh.cases with rfl | rfl | rfl | rfl
  · simp only [Keycloak.handler]
    cases hkind : ch.mfa.kind with
    | none => exact Attempt.obeys_pure _
    | totp => exact obeys_submitTotp ch _ _ (hF hkind)
    | push => exact hunsupported _ _
    | sms => exact hunsupported _ _
  · simp only [AzureAd.handler]
    cases hkind : ch.mfa.kind with
    | none => exact Attempt.obeys_pure _
    | totp => exact obeys_submitTotp ch _ _ (hF hkind)
    | push => exact Attempt.obeys_of_bind Page.obeys_host fun host => obeys_awaitPush ch host
    | sms => exact hunsupported _ _
  · simp only [Okta.handler]
    cases hkind : ch.mfa.kind with
    | none => exact Attempt.obeys_pure _
    | totp => exact obeys_submitTotp ch _ _ (hF hkind)
    | push =>
        refine Attempt.obeys_of_bind Page.obeys_host fun host => ?_
        refine Attempt.obeys_of_bind (Page.obeys_firstVisible _) fun button => ?_
        split
        · exact obeys_call_bind trivial fun _ => obeys_awaitPush ch host
        · exact obeys_awaitPush ch host
    | sms => exact hunsupported _ _
  · simp only [Generic.handler]
    cases hkind : ch.mfa.kind with
    | none => exact Attempt.obeys_pure _
    | totp => exact obeys_submitTotp ch _ _ (hF hkind)
    | push => exact hunsupported _ _
    | sms => exact hunsupported _ _

theorem obeys_keycloak_prompts :
    (Keycloak.prompts ctx).Obeys (Request.EntersBlindly F) (Blames ctx .callback) := by
  unfold Keycloak.prompts
  refine (obeys_rest fun _ => trivial).bind fun _ => ?_
  refine Attempt.obeys_request_bind trivial fun address => ?_
  refine Attempt.obeys_of_bind (Page.obeys_firstVisible _) fun form => ?_
  split
  · exact Attempt.obeys_pure _
  · refine Attempt.obeys_request_bind trivial fun title => ?_
    refine Attempt.obeys_request_bind trivial fun _ => ?_
    exact Attempt.obeys_throw (blames_actionRequired ctx _)

theorem obeys_azureAd_prompts :
    (AzureAd.prompts ctx).Obeys (Request.EntersBlindly F) (Blames ctx .callback) := by
  unfold AzureAd.prompts
  refine Attempt.obeys_of_bind ?_ fun shown => ?_
  · refine (Page.obeys_waitVisible _ _).bind fun visible _ => ?_
    split
    · exact trivial
    · exact (Page.obeys_firstVisible _).bind fun _ _ => trivial
  · split
    · refine Attempt.obeys_request_bind trivial fun _ => ?_
      exact obeys_call_bind trivial fun _ => obeys_rest fun _ => trivial
    · exact Attempt.obeys_pure _

/-- What may be shown after the login is dealt with without entering anything. -/
theorem obeys_prompts {h : Handler} (hh : h.BuiltIn) {prompts : Context → Attempt Unit}
    (hprompts : h.prompts = some prompts) :
    (prompts ctx).Obeys (Request.EntersBlindly F) (Blames ctx .callback) := by
  rcases hh.cases with rfl | rfl | rfl | rfl
  · cases hprompts
    exact obeys_keycloak_prompts
  · cases hprompts
    exact obeys_azureAd_prompts
  · cases hprompts
  · cases hprompts

end Idp

end SignOn
