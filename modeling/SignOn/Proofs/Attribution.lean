import SignOn.Proofs.LastingFailures
import SignOn.Proofs.SigningOff

/-! # Whom a failure is reported for

* A series of attempts adds a hint to the failure that it ends with; if each attempt fails for the role, so does the
  series (`Series.role_of_error`).
* `Provider.Attributes` asks of a provider that its failures name its role, and that a failed login says what to do.
* `failures_attributed` says which providers do so.  One does not: a flow of the application's own reports what it
  likes when it cannot sign off (`stray_failure`). -/

namespace SignOn

/-! ### Attempts -/

section

variable {σ α : Type} {b : PageBehaviour σ} {w : World σ}

/-- If all attempts fail for the role of a series, the series does, and it says what to do. -/
theorem Series.role_of_error {s : Series α}
    (hs : ∀ k v e, ((s.attempt k).run.run b v).1 = .error e → e.role = s.role) {e : AuthError}
    (h : ((withRetry s.policy s.role s.logger s.attempt).run.run b w).1 = .error e) :
    e.role = s.role ∧ e.remediation.isSome = true := by
  rw [s.run_withRetry] at h
  cases houtcome : s.outcome b w (s.last b w) with
  | ok a =>
      rw [houtcome] at h
      cases h
  | error failure =>
      have hrole : failure.role = s.role := hs _ _ _ houtcome
      rw [houtcome, Series.run_conclude_error] at h
      obtain rfl := Except.error.inj h
      split
      · rw [AuthError.afterAttempts_eq]
        exact ⟨rfl, rfl⟩
      · rw [AuthError.withDefaultRemediation_eq]
        exact ⟨hrole, rfl⟩

theorem role_withBanner (e : AuthError) : (withBanner e).Obeys (fun _ => True) fun e' => e'.role = e.role := by
  refine Page.detectError.obeys_true.bind fun found _ => ?_
  cases found with
  | none => exact rfl
  | some text =>
      show (if e.idpResponse.isNone then e.withIdpResponse text else e).role = e.role
      split <;> rfl

end

namespace Provider

open Attempt (obeys_pure obeys_throw obeys_page obeys_of_bind obeys_request_bind)

/-- A provider reports its failures for its role, and says what to do when it cannot sign on. -/
structure Attributes {σ : Type} (p : Provider) (b : PageBehaviour σ) (c : Credentials) (w : World σ) : Prop where
  login : ∀ e, ((p.login c).run.run b w).1 = .error e → e.role = p.role ∧ e.remediation.isSome = true
  logout : ∀ e, (p.logout.run.run b w).1 = .error e → e.role = p.role

/-- Whatever comes back, all failures of an attempt name the role. -/
def Names {α : Type} (role : String) (p : Attempt α) : Prop :=
  p.Obeys (fun _ => True) fun e => e.role = role

section

variable {α : Type} {role : String} {retry : RetryPolicy} {logger : Logger} {c : Credentials}

theorem names_page {phase : AuthPhase} {call : PageCall} : Names role (Attempt.page role phase call) :=
  obeys_page trivial fun _ => rfl

theorem names_of_bind {β : Type} {p : Plan α} {f : α → Attempt β} (hf : ∀ a, Names role (f a)) :
    Names role (Attempt.of p >>= f) :=
  obeys_of_bind p.obeys_true hf

/-! ### Signing off -/

theorem names_oidcLogout (s : OidcSettings) : Names role (oidcLogout s role logger) := by
  unfold oidcLogout
  cases s.logout with
  | none => exact names_page
  | some l =>
      refine names_of_bind fun _ => names_page.bind fun _ => ?_
      refine Attempt.obeys_ite (names_of_bind fun r => ?_) names_page
      cases r with
      | ok u => exact names_page
      | error e => exact names_of_bind fun _ => names_page

theorem names_visitCandidates (s : FormSettings) (addresses : List String) :
    Names role (visitCandidates s role logger addresses) := by
  induction addresses with
  | nil => exact names_of_bind fun _ => names_page
  | cons address rest ih =>
      rw [visitCandidates]
      refine names_of_bind fun r => ?_
      cases r with
      | error e => exact names_of_bind fun _ => ih
      | ok u =>
          refine names_of_bind fun shown => ?_
          cases shown with
          | false => exact names_of_bind fun _ => obeys_pure _
          | true => exact names_of_bind fun _ => ih

theorem names_formLogout (s : FormSettings) : Names role (formLogout s role logger) := by
  unfold formLogout
  split
  · exact names_visitCandidates s (logoutCandidates s)
  · have hcookies : Names role (do
        Attempt.of (logger.info ("clearing cookies to log out role '" ++ role ++ "'"))
        Attempt.page role .callback .clearCookies : Attempt Unit) := names_of_bind fun _ => names_page
    cases s.logoutUrl with
    | none => exact hcookies
    | some address =>
        refine names_of_bind fun r => ?_
        cases r with
        | ok u => exact hcookies
        | error e => exact names_of_bind fun _ => hcookies

/-! ### Signing on -/

theorem names_formAttempt (s : FormSettings) : Names role (formAttempt s role c) := by
  refine Plan.obeys_ask (A := fun _ => True) trivial fun start => ?_
  refine Plan.Obeys.bind obeys_formLogin fun r hr => ?_
  cases r with
  | ok u => exact ((SignedOn.since start).obeys_true).bind fun _ _ _ he => nomatch he
  | error e =>
      obtain ⟨phase, err, rfl⟩ := hr e rfl
      exact (role_withBanner _).bind fun e' he' _ he => Except.error.inj he ▸ he'

theorem role_judge {s : TokenSettings} {address : String} {x : Exchange} {e : AuthError}
    (h : judge s role address x = .error e) : e.role = role := by
  cases x with
  | answer status body =>
      rw [judge, judgeAnswer] at h
      split at h
      · obtain rfl := Except.error.inj h
        rfl
      · split at h
        · obtain rfl := Except.error.inj h
          rfl
        · split at h
          · obtain rfl := Except.error.inj h
            rfl
          · split at h
            · cases h
            · obtain rfl := Except.error.inj h
              rfl
  | _ =>
      obtain rfl := Except.error.inj h
      rfl

theorem names_requestToken (s : TokenSettings) : Names role (requestToken s role c) := by
  unfold requestToken
  cases Endpoint.of s.endpoint with
  | noAddress => exact obeys_throw rfl
  | otherScheme address => exact obeys_throw rfl
  | reachable address => exact names_of_bind fun x e he => role_judge he

theorem names_tokenAttempt (s : TokenSettings) : Names role (tokenAttempt s role logger c) := by
  unfold tokenAttempt
  refine names_of_bind fun start => (names_requestToken s).bind fun token => ?_
  refine names_of_bind fun timestamp => names_page.bind fun _ => ?_
  exact names_of_bind fun _ => Attempt.obeys_of (SignedOn.since start).obeys_true

theorem names_customAttempt (f : CustomFlow) : Names role (customAttempt f role logger c) := by
  refine Plan.obeys_ask (A := fun _ => True) trivial fun start => Plan.obeys_ask trivial fun _ => ?_
  refine ((f.login c).run.obeys_true).bind fun r _ => ?_
  cases r with
  | error e => exact fun _ he => Except.error.inj he ▸ rfl
  | ok u => exact ((SignedOn.since start).obeys_true).bind fun _ _ _ he => nomatch he

/-! ### Providers -/

section

variable {σ : Type} {b : PageBehaviour σ} {w : World σ}

theorem login_of_names {attempt : Nat → Attempt SignedOn} (h : ∀ k, Names role (attempt k)) {e : AuthError}
    (he : ((withRetry retry role logger attempt).run.run b w).1 = .error e) :
    e.role = role ∧ e.remediation.isSome = true :=
  Series.role_of_error (s := ⟨retry, role, logger, attempt⟩)
    (fun k v e' he' => Plan.Obeys.run b (h k) v e' he') he

theorem login_oidc {s : OidcSettings} {registry : Idp.Registry} (hf : ∀ h ∈ registry.handlers, h.BuiltIn)
    {e : AuthError} (he : (((oidc s role retry registry logger).login c).run.run b w).1 = .error e) :
    e.role = role ∧ e.remediation.isSome = true := by
  refine Series.role_of_error (s := (PageLogin.oidc s registry).series role logger c retry) (fun k v e' he' => ?_) he
  have hexecute : (((PageLogin.flow logger s registry).execute role c).run.run b
      ((PageLogin.announce role logger k).run b v).2).1 = .error e' :=
    (congrArg Prod.fst (PageLogin.run_attempt_oidc s registry)).symm.trans he'
  obtain ⟨last, -, hrole, -⟩ := Flow.execute_error (f := PageLogin.flow logger s registry) hf hexecute
  exact hrole

/-- Behind the login of a flow of the application's own a line is logged, which cannot fail. -/
theorem login_custom {f : CustomFlow} {e : AuthError}
    (he : (((custom f role retry logger).login c).run.run b w).1 = .error e) :
    e.role = role ∧ e.remediation.isSome = true := by
  have hlogin : ((custom f role retry logger).login c).run =
      (withRetry retry role logger fun _ => customAttempt f role logger c).run.bind fun
        | .ok r => (Attempt.of (logger.info ("custom flow '" ++ f.name ++ "' logged in role '" ++ role ++ "' in "
            ++ toString r.duration ++ "ms")) >>= fun _ => pure r : Attempt SignedOn).run
        | .error e => .done (.error e) := by
    refine congrArg (Plan.bind (withRetry retry role logger fun _ => customAttempt f role logger c).run) ?_
    funext r
    cases r <;> rfl
  rw [hlogin, Plan.run_bind] at he
  cases hseries : ((withRetry retry role logger fun _ => customAttempt f role logger c).run.run b w).1 with
  | ok r =>
      rw [hseries] at he
      cases he
  | error failure =>
      rw [hseries] at he
      obtain rfl := Except.error.inj he
      exact login_of_names (fun _ => names_customAttempt f) hseries

theorem logout_custom (f : CustomFlow) :
    ((custom f role retry logger).logout.run.run b w).1 = (f.logout.run.run b w).1 := by
  have hlogout : (custom f role retry logger).logout =
      Attempt.of (logger.info ("logging out role '" ++ role ++ "' via '" ++ f.name ++ "'")) >>= fun _ => f.logout :=
    rfl
  rw [hlogout, Attempt.run_of_bind, Plan.run_bind]
  exact (Plan.run_of_alike b f.logout.run ⟨_, rfl⟩).1

/-- **Whom a failure is reported for.**  Whatever the page, the server and the settings are: at an identity provider
with one of the built-in handlers, through a form, and at an endpoint that gives out tokens, every failure to sign on
or off names the role of the provider, and a failure to sign on says what to do.  So does a failure to sign on through
a flow of the application's own, whichever role that names; a failure to sign off is the flow's own. -/
theorem failures_attributed (b : PageBehaviour σ) (role : String) (retry : RetryPolicy) (logger : Logger)
    (c : Credentials) (w : World σ) :
    (∀ s registry, (∀ h ∈ registry.handlers, h.BuiltIn) →
        (oidc s role retry registry logger).Attributes b c w) ∧
      (∀ s, (form s role retry logger).Attributes b c w) ∧
      (∀ s, (token s role retry logger).Attributes b c w) ∧
      ∀ f : CustomFlow,
        (∀ e, (((custom f role retry logger).login c).run.run b w).1 = .error e →
          e.role = role ∧ e.remediation.isSome = true) ∧
          ((custom f role retry logger).logout.run.run b w).1 = (f.logout.run.run b w).1 := by
  refine ⟨fun s registry hf => ⟨fun e he => login_oidc hf he, ?_⟩, fun s => ⟨fun e he => ?_, ?_⟩,
    fun s => ⟨fun e he => ?_, ?_⟩, fun f => ⟨fun e he => login_custom he, logout_custom f⟩⟩
  · exact Plan.Obeys.run b (names_oidcLogout s) w
  · exact login_of_names (fun _ => names_formAttempt s) he
  · exact Plan.Obeys.run b (names_formLogout s) w
  · exact login_of_names (fun _ => names_tokenAttempt s) he
  · exact Plan.Obeys.run b (names_page.bind fun _ => obeys_pure _) w

end

end

/-- On a page on which nothing ends in time, a login is reported for the role, with a hint. -/
theorem failures_attributed_deafPage :
    ∃ e, (((oidc Flow.plainFlow.settings "admin" { maxRetries := 0 } {} .standard).login ⟨"ada", "secret"⟩).run.run
        Flow.deafPage { page := () }).1 = .error e ∧ e.role = "admin" ∧ e.remediation.isSome = true := by
  have hvalue : (((oidc Flow.plainFlow.settings "admin" { maxRetries := 0 } {} .standard).login
      ⟨"ada", "secret"⟩).run.run Flow.deafPage { page := () }).1.toOption = none := by decide +kernel
  obtain ⟨hoidc, -⟩ := failures_attributed Flow.deafPage "admin" { maxRetries := 0 } .standard ⟨"ada", "secret"⟩
    { page := () }
  have hattributes := hoidc Flow.plainFlow.settings {} fun _ h => h
  cases hrun : (((oidc Flow.plainFlow.settings "admin" { maxRetries := 0 } {} .standard).login
      ⟨"ada", "secret"⟩).run.run Flow.deafPage { page := () }).1 with
  | ok r =>
      rw [hrun] at hvalue
      cases hvalue
  | error e => exact ⟨e, rfl, hattributes.login e hrun⟩

/-- A flow that does not know its role. -/
def strayFlow : CustomFlow where
  name := "stray"
  login _ := Attempt.page "unknown" .navigation (.reload 1000)
  isSessionValid := return false
  logout := Attempt.page "unknown" .callback .clearCookies

/-- Its failures to sign off name another role than the one of the provider. -/
theorem stray_failure :
    ∃ e, ((custom strayFlow "admin" {} .standard).logout.run.run (Manager.cookiePage false) { page := () }).1 =
        .error e ∧ e.role ≠ (custom strayFlow "admin" {} .standard).role :=
  ⟨.ofPage "unknown" .callback (.other "context closed"), rfl, by decide⟩

end Provider

end SignOn
