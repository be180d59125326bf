import SignOn.Proofs.FlowSteps
import SignOn.Provider.Build

/-! # What providers do to the files

* `Provider.LeavesFiles` says that neither looking for a session on the page nor a login changes a file;
  `Idp.Handler.LeavesFiles` says so of the steps that differ between identity providers.
* Built-in handlers leave the files (`Idp.leavesFiles_of_builtIn`), and so does each provider that the
  settings can ask for (`Provider.leavesFiles_ofSettings`), with however many attempts. -/

namespace SignOn

/-! ### Attempts that leave the files -/

namespace Attempt

variable {α β : Type}

def LeavesFiles (p : Attempt α) : Prop :=
  p.Obeys Request.LeavesFiles fun _ => True

theorem leavesFiles_of_obeys {E : AuthError → Prop} {p : Attempt α}
    (h : p.Obeys (Request.Enters fun _ _ => True) E) : p.LeavesFiles :=
  h.mono (fun _ => Request.Enters.leavesFiles) fun _ _ => trivial

theorem leavesFiles_page {role : String} {phase : AuthPhase} {c : PageCall} :
    (page role phase c).LeavesFiles :=
  obeys_page trivial fun _ => trivial

theorem leavesFiles_page_bind {role : String} {phase : AuthPhase} {c : PageCall} {f : c.Value → Attempt β}
    (hf : ∀ v, (f v).LeavesFiles) : (page role phase c >>= f).LeavesFiles :=
  leavesFiles_page.bind hf

end Attempt

open Attempt (LeavesFiles leavesFiles_of_obeys leavesFiles_page leavesFiles_page_bind)

theorem leavesFiles_since (start : Nat) :
    (SignedOn.since start).Obeys Request.LeavesFiles fun _ => True :=
  Plan.obeys_ask trivial fun _ => Plan.obeys_ask trivial fun _ => trivial

theorem leavesFiles_withBanner (e : AuthError) :
    (withBanner e).Obeys Request.LeavesFiles fun _ => True := by
  refine (Page.obeys_detectErrorIn fun _ _ => ⟨trivial, trivial⟩).bind fun found _ => ?_
  cases found <;> exact trivial

theorem leavesFiles_retryFrom {α : Type} {p : RetryPolicy} {role : String} {logger : Logger}
    {attempt : Nat → Attempt α} (h : ∀ n, (attempt n).LeavesFiles) (left current : Nat) :
    (retryFrom p role logger attempt left current).Obeys Request.LeavesFiles fun _ => True := by
  have hattempt : ∀ n, (attempt n).run.Obeys Request.LeavesFiles fun _ => True := fun n =>
    Plan.Obeys.mono (h n) (fun _ => id) fun _ _ => trivial
  induction left generalizing current with
  | zero => exact hattempt current
  | succ left ih =>
      rw [retryFrom]
      refine (hattempt current).bind fun r _ => ?_
      cases r with
      | ok a => exact trivial
      | error e =>
          dsimp only
          generalize e.isRetryable = retryable
          cases retryable with
          | false => exact Plan.obeys_ask trivial fun _ => trivial
          | true =>
              cases left with
              | zero => exact Plan.obeys_ask trivial fun _ => trivial
              | succ left =>
                  exact Plan.obeys_ask trivial fun _ => Plan.obeys_ask trivial fun _ => ih (current + 1)

theorem leavesFiles_withRetry {α : Type} {p : RetryPolicy} {role : String} {logger : Logger}
    {attempt : Nat → Attempt α} (h : ∀ n, (attempt n).LeavesFiles) :
    (withRetry p role logger attempt).LeavesFiles :=
  Plan.Obeys.mono (leavesFiles_retryFrom h _ _) (fun _ => id) fun _ _ _ _ => trivial

/-! ### Logins at an identity provider -/

/-- What a handler does changes no file. -/
structure Idp.Handler.LeavesFiles (h : Idp.Handler) : Prop where
  mfa : ∀ ctx ch, (h.mfa ctx ch).LeavesFiles
  prompts : ∀ prompts, h.prompts = some prompts → ∀ ctx, (prompts ctx).LeavesFiles

theorem Idp.leavesFiles_of_builtIn {h : Idp.Handler} (hh : h.BuiltIn) : h.LeavesFiles where
  mfa _ ch := leavesFiles_of_obeys (obeys_mfa hh ch fun _ _ => trivial).enters
  prompts _ hprompts _ := leavesFiles_of_obeys (obeys_prompts hh hprompts).enters

namespace Flow

variable {f : Flow} {role : String} {c : Credentials}

theorem leavesFiles_handlerFor (hf : ∀ h ∈ f.registry.handlers, h.LeavesFiles) (address : String) :
    (f.handlerFor address).LeavesFiles :=
  handlerFor_of hf (Idp.leavesFiles_of_builtIn Idp.builtIn_generic) address

theorem leavesFiles_of_mem_steps {h : Idp.Handler} (hh : h.LeavesFiles) {s : Step × Attempt Unit}
    (hs : s ∈ f.steps h role c) : s.2.LeavesFiles := by
  rcases mem_steps hs with rfl | rfl | rfl | ⟨prompts, hprompts, rfl⟩ | rfl
  · exact leavesFiles_of_obeys (Idp.obeys_fillCredentials trivial trivial)
  · exact leavesFiles_of_obeys (obeys_submit trivial)
  · have hsecret : (f.secret role).LeavesFiles :=
      leavesFiles_of_obeys obeys_secret.enters
    exact hsecret.bind fun secret => hh.mfa _ _
  · exact hh.prompts prompts hprompts _
  · exact leavesFiles_of_obeys obeys_awaitSuccess.enters

theorem leavesFiles_runSteps {d : Deadline} {steps : List (Step × Attempt Unit)}
    (h : ∀ s ∈ steps, s.2.LeavesFiles) (last : Step) :
    (runSteps d role last steps).Obeys Request.LeavesFiles fun _ => True := by
  induction steps generalizing last with
  | nil => exact trivial
  | cons s rest ih =>
      have hs := h s List.mem_cons_self
      rw [runSteps]
      have hbounded : (bounded d role s.1 s.2).run.Obeys Request.LeavesFiles fun _ => True := by
        refine (Plan.Obeys.within d.at_ hs).bind fun r _ => ?_
        cases r <;> exact trivial
      refine hbounded.bind fun r _ => ?_
      cases r with
      | error e => exact trivial
      | ok u => exact ih (fun s' hs' => h s' (List.mem_cons_of_mem s hs')) s.1

theorem leavesFiles_execute (hf : ∀ h ∈ f.registry.handlers, h.LeavesFiles) :
    (f.execute role c).LeavesFiles := by
  have hrun : ∀ d, (f.run role c d).Obeys Request.LeavesFiles fun _ => True := by
    intro d
    have hopening : ∀ s ∈ f.opening role, s.2.LeavesFiles := fun s hs =>
      leavesFiles_of_obeys (obeys_of_mem_opening hs).enters
    refine (leavesFiles_runSteps hopening .navigate).bind fun r _ => ?_
    obtain ⟨step, r⟩ := r
    cases r with
    | error e => exact trivial
    | ok u =>
        refine Plan.obeys_ask trivial fun address => ?_
        refine Plan.obeys_ask trivial fun _ => ?_
        exact leavesFiles_runSteps (fun s hs => leavesFiles_of_mem_steps (leavesFiles_handlerFor hf _) hs) step
  have hend : ∀ start t, (f.conclude role start t).Obeys Request.LeavesFiles fun _ => True := by
    rintro start ⟨step, r⟩
    cases r with
    | ok u => exact (leavesFiles_since start).bind fun _ _ => Plan.obeys_ask trivial fun _ => trivial
    | error e =>
        unfold conclude
        dsimp only
        split
        · refine (leavesFiles_withBanner e).bind fun e' _ => ?_
          exact Plan.obeys_ask trivial fun _ => Plan.obeys_ask trivial fun _ => trivial
        · exact Plan.obeys_ask trivial fun _ => Plan.obeys_ask trivial fun _ => trivial
  refine Plan.obeys_ask trivial fun start => ?_
  refine Plan.obeys_ask trivial fun _ => ?_
  exact (hrun _).bind fun t _ => (hend start t).mono (fun _ => id) fun _ _ _ _ => trivial

end Flow

/-! ### Providers -/

/-- Neither a look for a session nor a login changes a file. -/
structure Provider.LeavesFiles (p : Provider) : Prop where
  isSessionValid : p.isSessionValid.Obeys Request.LeavesFiles fun _ => True
  login : ∀ c, (p.login c).LeavesFiles

namespace Provider

variable {role : String} {retry : RetryPolicy} {logger : Logger}

theorem leavesFiles_sessionMatches (c : SuccessCriteria) (probe : Probe) :
    (Page.sessionMatches c probe).Obeys Request.LeavesFiles fun _ => True :=
  (Page.obeys_sessionMatches (F := fun _ _ => True) c probe).mono (fun _ h => h.enters.leavesFiles) fun _ => id

theorem leavesFiles_oidc {registry : Idp.Registry} (hr : ∀ h ∈ registry.handlers, h.LeavesFiles)
    (s : OidcSettings) : (oidc s role retry registry logger).LeavesFiles where
  isSessionValid := leavesFiles_sessionMatches _ _
  login _ := leavesFiles_withRetry fun _ =>
    Attempt.obeys_request_bind trivial fun _ => Flow.leavesFiles_execute hr

theorem leavesFiles_form (s : FormSettings) : (form s role retry logger).LeavesFiles where
  isSessionValid := leavesFiles_sessionMatches _ _
  login c := by
    have hlogin : (formLogin s role c).LeavesFiles := by
      unfold formLogin
      refine leavesFiles_page_bind fun _ => ?_
      refine leavesFiles_page_bind fun _ => ?_
      refine leavesFiles_page_bind fun _ => ?_
      refine leavesFiles_page_bind fun _ => ?_
      refine leavesFiles_page_bind fun _ => ?_
      refine Attempt.obeys_of_bind ((Page.obeys_waitForSuccess (F := fun _ _ => True) _ _).mono
        (fun _ h => h.enters.leavesFiles) fun _ => id) fun r => ?_
      cases r with
      | ok _ => exact Attempt.obeys_pure _
      | error e => exact Attempt.obeys_throw trivial
    refine leavesFiles_withRetry fun _ => ?_
    refine Plan.obeys_ask trivial fun start => ?_
    refine Plan.Obeys.bind hlogin fun r _ => ?_
    cases r with
    | ok _ => exact (leavesFiles_since start).bind fun _ _ _ _ => trivial
    | error e => exact (leavesFiles_withBanner e).bind fun _ _ _ _ => trivial

theorem leavesFiles_token (s : TokenSettings) : (token s role retry logger).LeavesFiles where
  isSessionValid := by
    have hstored : (storedRecord s).Obeys Request.LeavesFiles fun _ => True := by
      refine Plan.obeys_ask trivial fun r => ?_
      match r with
      | .ok (.string raw) => exact trivial
      | .ok .null | .ok (.bool _) | .ok (.number _) | .ok (.array _) | .ok (.object _) => exact trivial
      | .error e => exact trivial
    exact hstored.bind fun _ _ => trivial
  login c := by
    have hrequest : (requestToken s role c).LeavesFiles := by
      unfold requestToken
      split
      · exact Attempt.obeys_throw trivial
      · exact Attempt.obeys_throw trivial
      · exact Attempt.obeys_request_bind trivial fun _ => fun _ _ => trivial
    refine leavesFiles_withRetry fun _ => ?_
    unfold tokenAttempt
    refine Attempt.obeys_request_bind trivial fun start => ?_
    refine hrequest.bind fun token => ?_
    refine Attempt.obeys_request_bind trivial fun timestamp => ?_
    refine leavesFiles_page_bind fun _ => ?_
    exact Attempt.obeys_request_bind trivial fun _ => Attempt.obeys_of (leavesFiles_since start)

/-- The provider that the settings ask for leaves the files if the handlers do. -/
theorem leavesFiles_ofSettings {s : Settings} {registry : Idp.Registry} {p : Provider}
    (hr : ∀ h ∈ registry.handlers, h.LeavesFiles) (hp : ofSettings s role registry logger = .ok p) :
    p.LeavesFiles := by
  unfold ofSettings at hp
  split at hp
  · split at hp
    · exact Except.ok.inj hp ▸ leavesFiles_oidc hr _
    · cases hp
  · split at hp
    · exact Except.ok.inj hp ▸ leavesFiles_form _
    · cases hp
  · split at hp
    · exact Except.ok.inj hp ▸ leavesFiles_token _
    · cases hp
  · cases hp

end Provider

end SignOn
