import SignOn.Proofs.FlowOrder

/-! # What a login that fails reports

* `Idp.Cause.IsTimeout` are the causes that may be gone at the next attempt.
* `Flow.Entry.FailsBy` says what has made a step fail: the page, a handler, or the time limit that cuts it
  off.
* `execute_error` says that a login that fails reports the step entered last, and that a timeout without
  a banner may be tried again. -/

namespace SignOn

/-! ### Failures that may be tried again -/

namespace Text

theorem toList_asciiLower (s : String) : (asciiLower s).toList = s.toList.flatMap asciiLowerChar :=
  String.toList_ofList

theorem contains_append {s word : String} (h : contains (asciiLower s) word = true) (t : String) :
    contains (asciiLower (s ++ t)) word = true := by
  obtain ⟨before, after, hs⟩ := occursIn_iff.mp h
  refine occursIn_iff.mpr ⟨before, after ++ (asciiLower t).toList, ?_⟩
  rw [toList_asciiLower, String.toList_append, List.flatMap_append, ← toList_asciiLower, ← toList_asciiLower,
    hs, List.append_assoc]

end Text

theorem isRetryable_append {s : String} (h : isRetryable s = true) (t : String) :
    isRetryable (s ++ t) = true := by
  obtain ⟨word, hword, hs⟩ := List.any_eq_true.mp h
  exact List.any_eq_true.mpr ⟨word, hword, Text.contains_append hs t⟩

theorem PageError.isRetryable_timeout (target : String) (ms : Nat) :
    isRetryable (PageError.timeout target ms).message = true := by
  have hword : isRetryable "timeout of " = true := by decide
  exact isRetryable_append (isRetryable_append (isRetryable_append hword _) _) _

namespace Idp

variable {ctx : Context} {phase : AuthPhase}

namespace Cause

/-- The page, the one-time push or the login has taken too long. -/
def IsTimeout : Cause → Prop
  | .page (.timeout ..) | .deadline _ | .pushTimeout _ => True
  | _ => False

theorem idpResponse_failure (cause : Cause) : (cause.failure ctx phase).idpResponse = none := by
  cases cause <;> rfl

theorem isRetryable_failure {cause : Cause} (h : cause.IsTimeout) :
    (cause.failure ctx phase).isRetryable = true := by
  cases cause with
  | page e =>
      cases e with
      | timeout target ms => exact PageError.isRetryable_timeout target ms
      | _ => exact h.elim
  | deadline limit => exact PageError.isRetryable_timeout "the login flow" limit
  | pushTimeout timeout =>
      have hword : SignOn.isRetryable "timeout of " = true := by decide
      exact isRetryable_append (isRetryable_append hword _) _
  | _ => exact h.elim

end Cause

end Idp

namespace Flow

variable {σ : Type} {b : PageBehaviour σ} {d : Deadline} {f : Flow} {role : String} {c : Credentials}

/-! ### Steps that fail -/

/-- The cause has made the step fail. -/
def Entry.FailsBy (ctx : Idp.Context) (d : Deadline) (e : Entry σ) (cause : Idp.Cause) : Prop :=
  e.result = some (.error (cause.failure ctx e.step.phase)) ∨ e.result = none ∧ cause = .deadline d.limit

theorem Entry.FailsBy.eq {e : Entry σ} {cause : Idp.Cause} {failure : AuthError}
    (h : e.FailsBy (f.context role) d cause) (hfails : e.Fails d role failure) :
    failure = cause.failure (f.context role) e.step.phase := by
  rcases h with hresult | ⟨hresult, rfl⟩
  · rcases hfails with hfails | ⟨hfails, -⟩
    · exact Except.error.inj (Option.some.inj (hfails.symm.trans hresult))
    · cases hfails.symm.trans hresult
  · rcases hfails with hfails | ⟨-, rfl⟩
    · cases hfails.symm.trans hresult
    · rfl

theorem exists_failsBy (hf : ∀ h ∈ f.registry.handlers, h.BuiltIn) {w : World σ} {e : Entry σ}
    (he : e ∈ f.entered b role c w) {failure : AuthError} (hfails : e.Fails (f.deadline w) role failure) :
    failure.role = role ∧ failure.phase = e.step.phase ∧
      ∃ cause, e.FailsBy (f.context role) (f.deadline w) cause := by
  rcases hfails with hresult | ⟨hresult, rfl⟩
  · obtain ⟨s, v, rfl, hs⟩ := exists_enter_of_mem_entered he
    have hblames : Idp.Blames (f.context role) s.1.phase failure := by
      rcases hs with hs | hs
      · exact of_result_error (obeys_of_mem_opening (F := fun _ _ => True) hs) hresult
      · exact of_result_error (obeys_of_mem_steps (builtIn_handlerFor hf _) hs) hresult
    obtain ⟨hrole, hphase, cause, rfl⟩ := hblames
    exact ⟨hrole, hphase, cause, .inl hresult⟩
  · exact ⟨rfl, rfl, .deadline (f.deadline w).limit, .inr ⟨hresult, rfl⟩⟩

variable (b f role) in
theorem run_conclude_failure (start : Nat) (step : Step) (cause : Idp.Cause) (phase : AuthPhase)
    (w : World σ) :
    ∃ e, ((f.conclude role start (step, .error (cause.failure (f.context role) phase))).run b w).1 =
        .error e ∧
      e.role = (cause.failure (f.context role) phase).role ∧
      e.phase = (cause.failure (f.context role) phase).phase ∧
      ((Page.detectError.run b w).1 = none → e = cause.failure (f.context role) phase) := by
  have hnone : (cause.failure (f.context role) phase).idpResponse = none := cause.idpResponse_failure
  refine ⟨_, run_conclude_error b role f start step hnone w, ?_⟩
  cases (Page.detectError.run b w).1 with
  | none => exact ⟨rfl, rfl, fun _ => rfl⟩
  | some text => exact ⟨rfl, rfl, fun h => nomatch h⟩

/-- **The failure of a login.**  It names the role, and the phase of the step that was entered last, which the
page, a handler or the time limit has made fail.  If that was a timeout of any kind and the page shows no
banner, the login may be tried again. -/
theorem execute_error (hf : ∀ h ∈ f.registry.handlers, h.BuiltIn) {w : World σ} {e : AuthError}
    (h : ((f.execute role c).run.run b w).1 = .error e) :
    ∃ last, (f.entered b role c w).getLast? = some last ∧ e.role = role ∧ e.phase = last.step.phase ∧
      (∃ cause, last.FailsBy (f.context role) (f.deadline w) cause) ∧
      ∀ cause : Idp.Cause, last.FailsBy (f.context role) (f.deadline w) cause → cause.IsTimeout →
        (Page.detectError.run b (f.taken b role c w).2).1 = none → e.isRetryable = true := by
  rw [run_execute] at h
  rcases f.run_entered b role c w with
    ⟨-, -, hok⟩ | ⟨init, last, failure, hentered, -, -, hfails, herror⟩
  · obtain ⟨s, hs⟩ := (f.obeys_conclude_ok role w.now (f.taken b role c w).1.1).run b (f.taken b role c w).2
    rw [← hok] at hs
    cases hs.symm.trans h
  · have hlast : last ∈ f.entered b role c w := hentered ▸ List.mem_append_right init List.mem_cons_self
    obtain ⟨hrole, hphase, cause, hcause⟩ := exists_failsBy hf hlast hfails
    obtain rfl := hcause.eq hfails
    obtain ⟨e', he', hrole', hphase', hsame⟩ := f.run_conclude_failure b role w.now
      last.step cause last.step.phase (f.taken b role c w).2
    rw [herror, he'] at h
    obtain rfl := Except.error.inj h
    refine ⟨last, ?_, hrole'.trans hrole, hphase'.trans hphase, ⟨cause, hcause⟩, ?_⟩
    · rw [hentered, List.getLast?_concat]
    · intro cause' hcause' htimeout hbanner
      rw [hsame hbanner, hcause'.eq hfails]
      exact Idp.Cause.isRetryable_failure htimeout

/-- A page on which every call takes longer than a login may. -/
def deafPage : PageBehaviour Unit where
  url _ _ := "about:blank"
  respond _ _ _ :=
    { duration := 1000000
      outcome := .error (.other "unreachable")
      page := ()
      abandoned := fun _ => () }

/-- A login that the time limit ends on the way to its start page may be tried again. -/
theorem execute_error_deafPage :
    ∃ e, ((plainFlow.execute "admin" ⟨"ada", "secret"⟩).run.run deafPage { page := () }).1 = .error e ∧
      e.role = "admin" ∧ e.phase = .navigation ∧ e.isRetryable = true := by
  have hview : (plainFlow.entered deafPage "admin" ⟨"ada", "secret"⟩ { page := () }).getLast?.map
      (fun e => (e.step, e.result.isNone)) = some (.navigate, true) := by decide +kernel
  have hbanner : (Page.detectError.run deafPage
      (plainFlow.taken deafPage "admin" ⟨"ada", "secret"⟩ { page := () }).2).1 = none := by decide +kernel
  have hvalue : ((plainFlow.execute "admin" ⟨"ada", "secret"⟩).run.run deafPage { page := () }).1.toOption =
      none := by decide +kernel
  cases hrun : ((plainFlow.execute "admin" ⟨"ada", "secret"⟩).run.run deafPage { page := () }).1 with
  | ok r =>
      rw [hrun] at hvalue
      cases hvalue
  | error e =>
      obtain ⟨last, hlast, hrole, hphase, -, hretry⟩ := execute_error (f := plainFlow) (fun _ h => h) hrun
      rw [hlast] at hview
      obtain ⟨hstep, hresult⟩ := Prod.mk.inj (Option.some.inj hview)
      rw [hstep] at hphase
      have hcause : last.FailsBy (plainFlow.context "admin") (plainFlow.deadline { page := () })
          (.deadline (plainFlow.deadline { page := () }).limit) :=
        .inr ⟨Option.isNone_iff_eq_none.mp hresult, rfl⟩
      exact ⟨e, rfl, hrole, hphase, hretry _ hcause trivial hbanner⟩

end Flow

end SignOn
