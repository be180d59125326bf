import SignOn.Proofs.Handlers
import SignOn.Proofs.Traces

/-! # The steps of a login

* `Flow.Entry` is a step that has been entered: where it started, what it asked for and what became of
  it.  `Flow.entries` are those of a list of steps, in their order; nothing is entered behind a step that
  has failed or was cut off (`run_runSteps`), and the requests are those of the entries
  (`trace_runSteps`).
* `Flow.entered` are the steps of a whole login, `Flow.enabled` the ones that are due; `run_entered` says
  what becomes of them. -/

namespace SignOn.Flow

variable {σ : Type} (b : PageBehaviour σ) (d : Deadline) (role : String)

/-! ### Entries -/

/-- A step that has been entered, and what became of it; nothing if the time limit cut it off. -/
structure Entry (σ : Type) where
  step : Step
  world : World σ
  events : List (Event σ)
  result : Option (Except AuthError Unit)

namespace Entry

def Done (e : Entry σ) : Prop :=
  e.result = some (.ok ())

/-- The failure is the one of the step, or the time limit cut the step off. -/
def Fails (e : Entry σ) (failure : AuthError) : Prop :=
  e.result = some (.error failure) ∨ e.result = none ∧ failure = d.failure role e.step

variable {d role} in
theorem Fails.not_done {e : Entry σ} {failure : AuthError} (h : e.Fails d role failure) : ¬ e.Done := by
  intro hdone
  rw [Done] at hdone
  rcases h with h | ⟨h, -⟩
  · cases h.symm.trans hdone
  · cases h.symm.trans hdone

end Entry

def enter (s : Step × Attempt Unit) (w : World σ) : Entry σ where
  step := s.1
  world := w
  events := (Plan.within d.at_ s.2.run).trace b w
  result := ((Plan.within d.at_ s.2.run).run b w).1

def leave (s : Step × Attempt Unit) (w : World σ) : World σ :=
  ((Plan.within d.at_ s.2.run).run b w).2

/-- The entries of steps that are taken one after the other. -/
def entries : List (Step × Attempt Unit) → World σ → List (Entry σ)
  | [], _ => []
  | s :: rest, w =>
    match (enter b d s w).result with
    | some (.ok ()) => enter b d s w :: entries rest (leave b d s w)
    | _ => [enter b d s w]

theorem trace_bounded (s : Step × Attempt Unit) (w : World σ) :
    (bounded d role s.1 s.2).run.trace b w = (enter b d s w).events := by
  rw [bounded, ExceptT.run_mk, Plan.bind_eq, Plan.trace_bind, enter]
  cases ((Plan.within d.at_ s.2.run).run b w).1 <;> exact List.append_nil _

theorem run_bounded (s : Step × Attempt Unit) (w : World σ) :
    (bounded d role s.1 s.2).run.run b w =
      ((enter b d s w).result.getD (.error (d.failure role s.1)), leave b d s w) := by
  rw [bounded, ExceptT.run_mk, Plan.bind_eq, Plan.run_bind, enter, leave]
  cases ((Plan.within d.at_ s.2.run).run b w).1 <;> rfl

variable {b d role}

theorem run_runSteps_of_done {s : Step × Attempt Unit} {w : World σ} (h : (enter b d s w).Done)
    (last : Step) (rest : List (Step × Attempt Unit)) :
    (runSteps d role last (s :: rest)).run b w = (runSteps d role s.1 rest).run b (leave b d s w) := by
  have hrun := run_bounded b d role s w
  rw [show (enter b d s w).result = _ from h] at hrun
  exact Plan.run_bind_of_eq b hrun

theorem run_runSteps_of_fails {s : Step × Attempt Unit} {w : World σ} {e : AuthError}
    (h : (enter b d s w).Fails d role e) (last : Step) (rest : List (Step × Attempt Unit)) :
    ((runSteps d role last (s :: rest)).run b w).1 = (s.1, .error e) := by
  have hrun := run_bounded b d role s w
  rcases h with h | ⟨h, rfl⟩ <;> rw [h] at hrun <;>
    exact congrArg Prod.fst (Plan.run_bind_of_eq b hrun)

variable (b d role) in
/-- What becomes of steps: all succeed, or the last one that is entered fails. -/
theorem run_runSteps (last : Step) (steps : List (Step × Attempt Unit)) (w : World σ) :
    ((∀ e ∈ entries b d steps w, e.Done) ∧ (entries b d steps w).map (·.step) = steps.map Prod.fst ∧
        ((runSteps d role last steps).run b w).1.2 = .ok ()) ∨
      ∃ init e failure, entries b d steps w = init ++ [e] ∧ (∀ i ∈ init, i.Done) ∧
        (entries b d steps w).map (·.step) <+: steps.map Prod.fst ∧ e.Fails d role failure ∧
        ((runSteps d role last steps).run b w).1 = (e.step, .error failure) := by
  induction steps generalizing last w with
  | nil => exact .inl ⟨fun _ h => (nomatch h), rfl, rfl⟩
  | cons s rest ih =>
      rw [entries]
      cases hresult : (enter b d s w).result with
      | none =>
          have hfails : (enter b d s w).Fails d role _ := .inr ⟨hresult, rfl⟩
          refine .inr ⟨[], _, _, rfl, fun _ h => (nomatch h), ?_, hfails, ?_⟩
          · exact List.prefix_append [s.1] _
          · exact run_runSteps_of_fails hfails last rest
      | some r =>
          cases r with
          | error e =>
              have hfails : (enter b d s w).Fails d role e := .inl hresult
              refine .inr ⟨[], _, _, rfl, fun _ h => (nomatch h), ?_, hfails, ?_⟩
              · exact List.prefix_append [s.1] _
              · exact run_runSteps_of_fails hfails last rest
          | ok u =>
              have hdone : (enter b d s w).Done := hresult
              rw [run_runSteps_of_done hdone]
              rcases ih s.1 (leave b d s w) with
                ⟨hall, hsteps, hlast⟩ | ⟨init, e, failure, hentries, hinit, hsteps, hfails, hlast⟩
              · refine .inl ⟨?_, ?_, ?_⟩
                · rintro e he
                  rcases List.mem_cons.mp he with rfl | he
                  · exact hdone
                  · exact hall e he
                · exact congrArg (List.cons s.1) hsteps
                · exact hlast
              · refine .inr ⟨enter b d s w :: init, e, failure, ?_, ?_, ?_, hfails, hlast⟩
                · exact congrArg (List.cons _) hentries
                · rintro i hi
                  rcases List.mem_cons.mp hi with rfl | hi
                  · exact hdone
                  · exact hinit i hi
                · exact (List.prefix_cons_inj s.1).mpr hsteps

theorem of_mem_events {A : Request → Prop} {E : AuthError → Prop} {s : Step × Attempt Unit}
    (hs : s.2.Obeys A E) {w : World σ} {e : Event σ} (he : e ∈ (enter b d s w).events) : A e.request :=
  (Plan.Obeys.within d.at_ hs).of_mem_trace b he

theorem of_result_error {A : Request → Prop} {E : AuthError → Prop} {s : Step × Attempt Unit}
    (hs : s.2.Obeys A E) {w : World σ} {failure : AuthError}
    (hresult : (enter b d s w).result = some (.error failure)) : E failure :=
  (Plan.Obeys.within d.at_ hs).run b w _ hresult _ rfl

/-- The requests of steps are those of the entries. -/
theorem trace_runSteps (last : Step) (steps : List (Step × Attempt Unit)) (w : World σ) :
    (runSteps d role last steps).trace b w = (entries b d steps w).flatMap (·.events) := by
  induction steps generalizing last w with
  | nil => rfl
  | cons s rest ih =>
      rw [runSteps, Plan.bind_eq, Plan.trace_bind, trace_bounded, run_bounded, entries]
      cases (enter b d s w).result with
      | none => rfl
      | some r =>
          cases r with
          | error e => rfl
          | ok u => exact congrArg (_ ++ ·) (ih s.1 (leave b d s w))

theorem exists_enter_of_mem {steps : List (Step × Attempt Unit)} {w : World σ} {e : Entry σ}
    (he : e ∈ entries b d steps w) : ∃ s ∈ steps, ∃ v, e = enter b d s v := by
  induction steps generalizing w with
  | nil => cases he
  | cons s rest ih =>
      rw [entries] at he
      split at he
      · rcases List.mem_cons.mp he with rfl | he
        · exact ⟨s, List.mem_cons_self, w, rfl⟩
        · obtain ⟨s', hs', v, rfl⟩ := ih he
          exact ⟨s', List.mem_cons_of_mem s hs', v, rfl⟩
      · rw [List.mem_singleton.mp he]
        exact ⟨s, List.mem_cons_self, w, rfl⟩

/-! ### Parts of a step -/

variable {f : Flow} {c : Credentials}

theorem obeys_submit {F : String → String → Prop} {ctx : Idp.Context} {s : Selectors}
    (hp : F s.password c.password) :
    (submit ctx c s).Obeys (Request.Enters F) (Idp.Blames ctx .credentials) := by
  unfold submit
  refine (Idp.obeys_submitForm s).bind fun became => ?_
  split
  · refine Idp.obeys_call_bind hp fun _ => ?_
    exact (Idp.obeys_submitForm s).bind fun _ => Attempt.obeys_pure _
  · exact Attempt.obeys_pure _

theorem obeys_secret {F : String → String → Prop} :
    (f.secret role).Obeys (Request.EntersBlindly F) (Idp.Blames (f.context role) .mfa) := by
  unfold secret
  split
  · exact Attempt.obeys_pure _
  · split
    · exact Attempt.obeys_throw ⟨rfl, rfl, .secretUnnamed, rfl⟩
    · refine Attempt.obeys_of_bind (Totp.obeys_secretFromEnv _) fun r => ?_
      cases r with
      | ok secret => exact Attempt.obeys_pure _
      | error e => exact Attempt.obeys_throw (Idp.blames_oneTimeCode (f.context role) e)

theorem obeys_answerMfa {F : String → String → Prop} {h : Idp.Handler} (hh : h.BuiltIn)
    (hF : f.settings.mfa.kind = .totp →
      ∀ code, F (f.settings.mfa.inputSelector.getD (Idp.codeField h.kind)) code) :
    (f.answerMfa h role).Obeys (Request.EntersBlindly F) (Idp.Blames (f.context role) .mfa) :=
  obeys_secret.bind fun secret => Idp.obeys_mfa hh ⟨f.settings.mfa, secret⟩ hF

theorem obeys_awaitSuccess {F : String → String → Prop} :
    (f.awaitSuccess role).Obeys (Request.EntersBlindly F) (Idp.Blames (f.context role) .callback) := by
  refine Plan.Obeys.bind (Page.obeys_waitForSuccess _ _) fun r _ => ?_
  cases r with
  | ok _ => exact fun _ h => nomatch h
  | error e => exact fun _ h => Except.error.inj h ▸ Idp.blames_page (f.context role) .callback e

def Enterable (f : Flow) (h : Idp.Handler) (c : Credentials) : Step → String → String → Prop
  | .fillCredentials, selector, value =>
    selector = (f.selectorsFor h).username ∧ value = c.username ∨
      selector = (f.selectorsFor h).password ∧ value = c.password
  | .submitForm, selector, value => selector = (f.selectorsFor h).password ∧ value = c.password
  | .mfa, selector, _ =>
    f.settings.mfa.kind = .totp ∧
      selector = f.settings.mfa.inputSelector.getD (Idp.codeField h.kind)
  | _, _, _ => False

theorem mem_opening {s : Step × Attempt Unit} (hs : s ∈ f.opening role) :
    s = (.navigate, Attempt.page role .navigation
        (.goto f.settings.loginUrl f.settings.timeouts.idpRedirect)) ∨
      f.settings.skipIdpRedirect = false ∧
        ((∃ url, f.settings.idpLoginUrl = some url ∧ s = (.waitForIdpRedirect,
            Attempt.page role .navigation
              (.waitForUrl (.contains url) f.settings.timeouts.idpRedirect))) ∨
          f.settings.idpLoginUrl = none ∧ s = (.waitForIdpRedirect,
            Attempt.page role .navigation
              (.waitForLoadState .domContentLoaded f.settings.timeouts.idpRedirect))) := by
  unfold opening at hs
  rcases List.mem_cons.mp hs with rfl | hs
  · exact .inl rfl
  · split at hs
    · cases hs
    · next hskip =>
        rw [List.mem_singleton.mp hs]
        refine .inr ⟨eq_false_of_ne_true hskip, ?_⟩
        cases f.settings.idpLoginUrl with
        | some url => exact .inl ⟨url, rfl, rfl⟩
        | none => exact .inr ⟨rfl, rfl⟩

theorem mem_steps {h : Idp.Handler} {s : Step × Attempt Unit} (hs : s ∈ f.steps h role c) :
    s = (.fillCredentials, Idp.fillCredentials (f.context role) c (f.selectorsFor h)) ∨
      s = (.submitForm, submit (f.context role) c (f.selectorsFor h)) ∨
      s = (.mfa, f.answerMfa h role) ∨
      (∃ prompts, h.prompts = some prompts ∧ s = (.postLoginPrompts, prompts (f.context role))) ∨
      s = (.waitForSuccess, f.awaitSuccess role) := by
  unfold steps at hs
  simp only [List.mem_append, List.mem_cons, List.not_mem_nil, or_false] at hs
  rcases hs with rfl | rfl | (hs | hs) | rfl
  · exact .inl rfl
  · exact .inr (.inl rfl)
  · split at hs
    · cases hs
    · exact .inr (.inr (.inl (List.mem_singleton.mp hs)))
  · split at hs
    · next prompts hprompts =>
        exact .inr (.inr (.inr (.inl ⟨prompts, hprompts, List.mem_singleton.mp hs⟩)))
    · cases hs
  · exact .inr (.inr (.inr (.inr rfl)))

theorem obeys_of_mem_opening {F : String → String → Prop} {s : Step × Attempt Unit}
    (hs : s ∈ f.opening role) :
    s.2.Obeys (Request.EntersBlindly F) (Idp.Blames (f.context role) s.1.phase) := by
  have hblames := Idp.blames_page (f.context role) .navigation
  rcases mem_opening hs with rfl | ⟨-, ⟨url, -, rfl⟩ | ⟨-, rfl⟩⟩
  · exact Attempt.obeys_page trivial hblames
  · exact Attempt.obeys_page trivial hblames
  · exact Attempt.obeys_page trivial hblames

theorem obeys_of_mem_steps {h : Idp.Handler} (hh : h.BuiltIn) {s : Step × Attempt Unit}
    (hs : s ∈ f.steps h role c) :
    s.2.Obeys (Request.Enters (f.Enterable h c s.1)) (Idp.Blames (f.context role) s.1.phase) := by
  rcases mem_steps hs with rfl | rfl | rfl | ⟨prompts, hprompts, rfl⟩ | rfl
  · exact Idp.obeys_fillCredentials (.inl ⟨rfl, rfl⟩) (.inr ⟨rfl, rfl⟩)
  · exact obeys_submit ⟨rfl, rfl⟩
  · exact (obeys_answerMfa hh fun hkind _ => ⟨hkind, rfl⟩).enters
  · exact (Idp.obeys_prompts hh hprompts).enters
  · exact obeys_awaitSuccess.enters

/-- What holds of the handlers that are registered and of the common one holds of the handler of a login. -/
theorem handlerFor_of {P : Idp.Handler → Prop} (hf : ∀ h ∈ f.registry.handlers, P h)
    (hgeneric : P Idp.Generic.handler) (address : String) : P (f.handlerFor address) := by
  unfold handlerFor
  split <;> exact Idp.Registry.get_of hf hgeneric _

theorem builtIn_handlerFor (hf : ∀ h ∈ f.registry.handlers, h.BuiltIn) (address : String) :
    (f.handlerFor address).BuiltIn :=
  handlerFor_of hf Idp.builtIn_generic address

/-! ### Whole logins -/

/-- Is the step one that is taken with a handler? -/
def isDue (f : Flow) (h : Idp.Handler) : Step → Bool
  | .navigate | .fillCredentials | .submitForm | .waitForSuccess => true
  | .waitForIdpRedirect => !f.settings.skipIdpRedirect
  | .mfa => f.settings.mfa.kind ≠ .none
  | .postLoginPrompts => h.prompts.isSome
  | .done => false

/-- The steps that are due with a handler, in their order. -/
def enabled (f : Flow) (h : Idp.Handler) : List Step :=
  Step.all.filter (f.isDue h)

theorem map_fst_steps (f : Flow) (h : Idp.Handler) (role : String) (c : Credentials) :
    (f.opening role).map Prod.fst ++ (f.steps h role c).map Prod.fst = f.enabled h := by
  unfold opening steps enabled
  cases hskip : f.settings.skipIdpRedirect <;> cases hprompts : h.prompts <;>
    by_cases hmfa : f.settings.mfa.kind = .none <;>
    simp [Step.all, List.filter_cons, isDue, hskip, hprompts, hmfa]

variable (b) (f) (role) (c)

/-- The time limit of a login that starts in a world. -/
def deadline (w : World σ) : Deadline :=
  ⟨w.now + f.settings.timeouts.loginFlow, f.settings.timeouts.loginFlow⟩

/-- The world in which the first step starts. -/
def started (w : World σ) : World σ :=
  ((f.logger.info ("starting OIDC login for role '" ++ role ++ "' as " ++ c.username)).run b w).2

/-- What becomes of the steps up to the page of the identity provider. -/
def arrival (w : World σ) : (Step × Except AuthError Unit) × World σ :=
  (runSteps (f.deadline w) role .navigate (f.opening role)).run b (f.started b role c w)

/-- The handler for the page that a login has been sent to. -/
def handlerAt (w : World σ) : Idp.Handler :=
  f.handlerFor (b.url (f.arrival b role c w).2.page (f.arrival b role c w).2.now)

/-- The world in which the first step at the identity provider starts. -/
def arrived (w : World σ) : World σ :=
  ((f.logger.debug ("using " ++ (f.handlerAt b role c w).kind.name ++ " handler for role '" ++ role
    ++ "'")).run b (f.arrival b role c w).2).2

/-- The steps that a login enters. -/
def entered (w : World σ) : List (Entry σ) :=
  entries b (f.deadline w) (f.opening role) (f.started b role c w) ++
    match (f.arrival b role c w).1.2 with
    | .error _ => []
    | .ok () =>
      entries b (f.deadline w) (f.steps (f.handlerAt b role c w) role c) (f.arrived b role c w)

/-- What becomes of the steps of a login. -/
def taken (w : World σ) : (Step × Except AuthError Unit) × World σ :=
  (f.run role c (f.deadline w)).run b (f.started b role c w)

theorem taken_eq (w : World σ) :
    f.taken b role c w =
      match (f.arrival b role c w).1.2 with
      | .error e => (((f.arrival b role c w).1.1, .error e), (f.arrival b role c w).2)
      | .ok () =>
        (runSteps (f.deadline w) role (f.arrival b role c w).1.1
          (f.steps (f.handlerAt b role c w) role c)).run b (f.arrived b role c w) := by
  have hfirst : (runSteps (f.deadline w) role .navigate (f.opening role)).run b (f.started b role c w) =
      f.arrival b role c w := rfl
  unfold taken run arrived handlerAt
  rw [Plan.bind_eq, Plan.run_bind, hfirst]
  generalize f.arrival b role c w = first
  obtain ⟨⟨step, r⟩, w'⟩ := first
  cases r <;> rfl

/-- Between the two lists of steps the page is asked for its address, and a line is logged. -/
theorem trace_run (w : World σ) : ∃ between : List (Event σ), (∀ e ∈ between, e.isCall = false) ∧
    (f.run role c (f.deadline w)).trace b (f.started b role c w) =
      (entries b (f.deadline w) (f.opening role) (f.started b role c w)).flatMap (·.events) ++
        match (f.arrival b role c w).1.2 with
        | .error _ => []
        | .ok () =>
          between ++ (entries b (f.deadline w) (f.steps (f.handlerAt b role c w) role c)
            (f.arrived b role c w)).flatMap (·.events) := by
  have hfirst : (runSteps (f.deadline w) role .navigate (f.opening role)).run b (f.started b role c w) =
      f.arrival b role c w := rfl
  rw [run, Plan.bind_eq, Plan.trace_bind, trace_runSteps, hfirst]
  unfold arrived handlerAt
  generalize f.arrival b role c w = first
  obtain ⟨⟨step, r⟩, w'⟩ := first
  cases r with
  | error e => exact ⟨[], fun _ h => (nomatch h), rfl⟩
  | ok u =>
      refine ⟨[⟨w', .url, some (b.url w'.page w'.now)⟩, ⟨w', .log .debug f.logger.component _, some ()⟩],
        ?_, congrArg (_ ++ ·) (congrArg (fun t => _ :: _ :: t) (trace_runSteps step _ _))⟩
      simp [Event.isCall, Request.isCall]

theorem calls_run (w : World σ) :
    ((f.run role c (f.deadline w)).trace b (f.started b role c w)).filter Event.isCall =
      ((f.entered b role c w).flatMap (·.events)).filter Event.isCall := by
  obtain ⟨between, hbetween, htrace⟩ := f.trace_run b role c w
  rw [htrace, entered]
  cases (f.arrival b role c w).1.2 with
  | error e => simp
  | ok u =>
      have hnone : between.filter Event.isCall = [] :=
        List.filter_eq_nil_iff.mpr fun e he => by simp [hbetween e he]
      simp only [List.flatMap_append, List.filter_append, hnone, List.nil_append]

/-- What becomes of a login: all the steps that are due are entered and succeed, or the last one that is
entered fails. -/
theorem run_entered (w : World σ) :
    ((∀ e ∈ f.entered b role c w, e.Done) ∧
        (f.entered b role c w).map (·.step) = f.enabled (f.handlerAt b role c w) ∧
        (f.taken b role c w).1.2 = .ok ()) ∨
      ∃ init e failure, f.entered b role c w = init ++ [e] ∧ (∀ i ∈ init, i.Done) ∧
        (f.entered b role c w).map (·.step) <+: f.enabled (f.handlerAt b role c w) ∧
        e.Fails (f.deadline w) role failure ∧ (f.taken b role c w).1 = (e.step, .error failure) := by
  rw [taken_eq, entered, ← map_fst_steps f _ role c]
  rcases run_runSteps b (f.deadline w) role .navigate (f.opening role) (f.started b role c w) with
    ⟨hall, hsteps, hok⟩ | ⟨init, e, failure, hentries, hinit, hsteps, hfails, herror⟩
  · have harrival : (f.arrival b role c w).1.2 = .ok () := hok
    rw [harrival]
    dsimp only
    rw [List.map_append, hsteps]
    rcases run_runSteps b (f.deadline w) role (f.arrival b role c w).1.1
      (f.steps (f.handlerAt b role c w) role c) (f.arrived b role c w) with
      ⟨hall', hsteps', hok'⟩ | ⟨init, e, failure, hentries, hinit, hsteps', hfails, herror⟩
    · refine .inl ⟨fun e he => ?_, by rw [hsteps'], hok'⟩
      rcases List.mem_append.mp he with he | he
      · exact hall e he
      · exact hall' e he
    · refine .inr ⟨entries b (f.deadline w) (f.opening role) (f.started b role c w) ++ init, e, failure, ?_,
        fun i hi => ?_, ?_, hfails, herror⟩
      · rw [hentries, List.append_assoc]
      · rcases List.mem_append.mp hi with hi | hi
        · exact hall i hi
        · exact hinit i hi
      · exact (List.prefix_append_right_inj _).mpr hsteps'
  · have harrival : (f.arrival b role c w).1 = (e.step, .error failure) := herror
    rw [harrival]
    dsimp only
    rw [List.append_nil]
    exact .inr ⟨init, e, failure, hentries, hinit, hsteps.trans (List.prefix_append _ _), hfails, rfl⟩

variable {b f role c}

theorem exists_enter_of_mem_entered {w : World σ} {e : Entry σ} (he : e ∈ f.entered b role c w) :
    ∃ s v, e = enter b (f.deadline w) s v ∧
      (s ∈ f.opening role ∨ s ∈ f.steps (f.handlerAt b role c w) role c) := by
  rcases List.mem_append.mp he with he | he
  · obtain ⟨s, hs, v, rfl⟩ := exists_enter_of_mem he
    exact ⟨s, v, rfl, .inl hs⟩
  · split at he
    · cases he
    · obtain ⟨s, hs, v, rfl⟩ := exists_enter_of_mem he
      exact ⟨s, v, rfl, .inr hs⟩

/-! ### The end of a login -/

variable (b f role c)

theorem run_execute (w : World σ) :
    (f.execute role c).run.run b w =
      (f.conclude role w.now (f.taken b role c w).1).run b (f.taken b role c w).2 := by
  rw [execute, ExceptT.run_mk, Plan.bind_eq]
  exact Plan.run_bind b (f.run role c (f.deadline w)) (f.conclude role w.now) (f.started b role c w)

theorem trace_execute (w : World σ) : ∃ start : List (Event σ), (∀ e ∈ start, e.isCall = false) ∧
    (f.execute role c).run.trace b w =
      start ++ (f.run role c (f.deadline w)).trace b (f.started b role c w) ++
        (f.conclude role w.now (f.taken b role c w).1).trace b (f.taken b role c w).2 := by
  have htrace := Plan.trace_bind b (f.run role c (f.deadline w)) (f.conclude role w.now)
    (f.started b role c w)
  refine ⟨[⟨w, .clock, some w.now⟩, ⟨w, .log .info f.logger.component
    ("starting OIDC login for role '" ++ role ++ "' as " ++ c.username), some ()⟩], ?_, ?_⟩
  · simp [Event.isCall, Request.isCall]
  · rw [execute, ExceptT.run_mk, Plan.bind_eq]
    exact congrArg (fun t => _ :: _ :: t) htrace

/-- Requests that look for a banner. -/
def LooksForBanner : Request → Prop
  | .page (.isVisible s) | .page (.textContent s) => s ∈ Page.errorSelectors
  | .page _ | .race .. | .file _ | .post _ => False
  | _ => True

theorem obeys_withBanner (e : AuthError) : (withBanner e).Obeys LooksForBanner fun _ => True := by
  refine (Page.obeys_detectErrorIn fun _ hs => ⟨hs, hs⟩).bind fun found _ => ?_
  cases found <;> exact trivial

/-- Behind the last step of a login that succeeds there are no more calls to the page. -/
theorem obeys_conclude_ok (start : Nat) (step : Step) :
    (f.conclude role start (step, .ok ())).Obeys (fun q => q.isCall = false) fun r => ∃ s, r = .ok s := by
  refine Plan.Obeys.bind (Q := fun _ => True) ?_ fun result _ => ?_
  · exact Plan.obeys_ask rfl fun _ => Plan.obeys_ask rfl fun _ => trivial
  · exact Plan.obeys_ask rfl fun _ => ⟨result, rfl⟩

theorem obeys_conclude_error (start : Nat) (step : Step) (e : AuthError) :
    (f.conclude role start (step, .error e)).Obeys LooksForBanner fun r => ∃ failure, r = .error failure := by
  unfold conclude
  dsimp only
  split
  · refine (obeys_withBanner e).bind fun e' _ => ?_
    exact Plan.obeys_ask trivial fun _ => Plan.obeys_ask trivial fun _ => ⟨e', rfl⟩
  · exact Plan.obeys_ask trivial fun _ => Plan.obeys_ask trivial fun _ => ⟨e, rfl⟩

theorem run_withBanner {e : AuthError} (he : e.idpResponse = none) (w : World σ) :
    ((withBanner e).run b w).1 =
      match (Page.detectError.run b w).1 with
      | some text => e.withIdpResponse text
      | none => e := by
  rw [withBanner, Plan.bind_eq, Plan.run_bind]
  cases (Page.detectError.run b w).1 with
  | none => rfl
  | some text =>
      dsimp only
      rw [if_pos (by rw [he]; rfl)]
      rfl

/-- The failure of a login is the one of its last step, with the banner on the page as its reason. -/
theorem run_conclude_error (start : Nat) (step : Step) {e : AuthError} (he : e.idpResponse = none)
    (w : World σ) :
    ((f.conclude role start (step, .error e)).run b w).1 =
      .error (match (Page.detectError.run b w).1 with
        | some text => e.withIdpResponse text
        | none => e) := by
  unfold conclude
  dsimp only
  rw [if_pos (by rw [he]; rfl), Plan.bind_eq, Plan.run_bind, ← run_withBanner b he w]
  rfl

end SignOn.Flow
