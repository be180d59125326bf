import SignOn.Proofs.FlowSteps

/-! # The order of a login, and what it enters

* `Totp.Engine.IsCode` says what the code of the present time is; what a second factor enters is the code
  of the time at which it is entered (`Idp.watches_mfa`).
* `Flow.Fillable` is what a login may enter: the user name, the password and a current code, each into its
  own field.
* `Flow.precedes_isFill` says that nothing is entered before the page of the identity provider is there.
* `execute_steps` puts these together with the order of the steps. -/

namespace SignOn

variable {σ : Type} {b : PageBehaviour σ}

/-! ### Codes of the present time -/

namespace Totp.Engine

/-- The code for the time that a wall clock shows. -/
def codeOf (engine : Engine) (secret : String) (wall : Int) : Except MfaError String :=
  match sinceEpoch wall with
  | .error e => .error e
  | .ok ms => codeAt engine.step secret (ms / 1000)

theorem generate_bind {α : Type} (engine : Engine) (secret : String) (g : Except MfaError String → Plan α) :
    (engine.generate secret).bind g = Plan.wallClock.bind fun wall => g (engine.codeOf secret wall) := by
  rw [generate, Plan.bind_eq, Plan.bind_assoc]
  congr 1
  funext wall
  unfold codeOf
  cases sinceEpoch wall <;> rfl

/-- The code is the one of the present time. -/
def IsCode (engine : Engine) (secret : String) (w : World σ) (code : String) : Prop :=
  0 ≤ w.wall ∧ codeAt engine.step secret (w.wall.toNat / 1000) = .ok code

theorem isCode_of_codeOf {engine : Engine} {secret code : String} {w : World σ}
    (h : engine.codeOf secret w.wall = .ok code) : engine.IsCode secret w code := by
  by_cases hwall : w.wall < 0
  · rw [codeOf, sinceEpoch, if_pos hwall] at h
    cases h
  · rw [codeOf, sinceEpoch, if_neg hwall] at h
    exact ⟨by omega, h⟩

end Totp.Engine

namespace Idp

variable {ctx : Context} {A : World σ → Request → Prop}

theorem watches_of_obeys {F : World σ → String → String → Prop} {α : Type} {p : Attempt α}
    {E : AuthError → Prop} (h : p.Obeys (Request.Enters fun _ _ => False) E) (w : World σ) :
    p.Watches b (fun w r => r.Enters (F w)) w :=
  (h.mono (fun _ hr _ => hr.mono fun _ _ hfalse => hfalse.elim) fun _ => id).watches w

/-- What is entered as a code is the code of the time at which it is entered, and that is done at once. -/
theorem watches_enterCode (secret input submit : String) (w : World σ) :
    (enterCode ctx secret input submit).Watches b
      (fun v r => r.Enters fun s value => v = w ∧ s = input ∧ ctx.totp.IsCode secret v value) w := by
  unfold enterCode
  rw [Attempt.Watches, Attempt.run_of_bind, Totp.Engine.generate_bind]
  refine Plan.watches_wallClock trivial ?_
  cases hcode : ctx.totp.codeOf secret w.wall with
  | error e => exact trivial
  | ok code =>
      have hrest : (do
          ctx.page .mfa (.click submit)
          ctx.rest
          Attempt.of (ctx.logger.info ("submitted TOTP code for role '" ++ ctx.role ++ "'")) :
          Attempt Unit).Obeys (Request.Enters fun _ _ => False) (Blames ctx .mfa) := by
        refine obeys_call_bind trivial fun _ => ?_
        refine (obeys_rest fun _ => trivial).bind fun _ => ?_
        exact Attempt.obeys_of (Plan.obeys_request trivial fun _ => trivial)
      refine Attempt.Watches.bind ?_ fun _ w' => watches_of_obeys hrest w'
      exact Attempt.watches_page ⟨rfl, rfl, Totp.Engine.isCode_of_codeOf hcode⟩

/-- The secret of a challenge and the field of codes decide what is entered for it. -/
theorem watches_submitTotp (ch : Challenge) (input submit : String) (w : World σ) :
    (submitTotp ctx ch input submit).Watches b
      (fun w r => r.Enters fun s v => s = ch.mfa.inputSelector.getD input ∧
        ∃ secret, ch.secret = some secret ∧ ctx.totp.IsCode secret w v) w := by
  unfold submitTotp
  cases hsecret : ch.secret with
  | none => exact trivial
  | some secret =>
      have hcode : ∀ submit (w' : World σ),
          (enterCode ctx secret (ch.mfa.inputSelector.getD input) submit).Watches b
            (fun w r => r.Enters fun s v => s = ch.mfa.inputSelector.getD input ∧
              ∃ s, some secret = some s ∧ ctx.totp.IsCode s w v) w' := fun submit w' =>
        (watches_enterCode secret _ submit w').mono fun _ _ hr => hr.mono fun _ _ h =>
          ⟨h.2.1, secret, rfl, h.2.2⟩
      have hfield : (ctx.page .mfa (.waitForSelector (ch.mfa.inputSelector.getD input) ctx.fieldTimeout)).Obeys
          (Request.Enters fun _ _ => False) (Blames ctx .mfa) := obeys_call trivial
      have hfresh : (Attempt.of (ctx.totp.waitForFresh freshness)).Obeys
          (Request.Enters fun _ _ => False) (Blames ctx .mfa) :=
        Attempt.obeys_of (Totp.obeys_waitForFresh _ _).enters
      have hlog : ∀ message, (Attempt.of (ctx.logger.debug message)).Obeys
          (Request.Enters fun _ _ => False) (Blames ctx .mfa) := fun _ =>
        Attempt.obeys_of (Plan.obeys_request trivial fun _ => trivial)
      refine (watches_of_obeys hfield w).bind fun _ w' => ?_
      refine (watches_of_obeys hfresh w').bind fun waited w' => ?_
      dsimp only
      split
      · exact (watches_of_obeys (hlog _) w').bind fun _ w' => hcode _ w'
      · exact hcode _ w'

/-- A second factor enters the code of the present time into the field of codes, and nothing else. -/
theorem watches_mfa {h : Handler} (hh : h.BuiltIn) (ch : Challenge) (w : World σ) :
    (h.mfa ctx ch).Watches b
      (fun w r => r.Enters fun s v => s = ch.mfa.inputSelector.getD (codeField h.kind) ∧
        ∃ secret, ch.secret = some secret ∧ ctx.totp.IsCode secret w v) w := by
  by_cases hkind : ch.mfa.kind = .totp
  · rcases hh.cases with rfl | rfl | rfl | rfl
    · simp only [Keycloak.handler, hkind]
      exact watches_submitTotp ch _ _ w
    · simp only [AzureAd.handler, hkind]
      exact watches_submitTotp ch _ _ w
    · simp only [Okta.handler, hkind]
      exact watches_submitTotp ch _ _ w
    · simp only [Generic.handler, hkind]
      exact watches_submitTotp ch _ _ w
  · exact watches_of_obeys (obeys_mfa hh ch fun h => absurd h hkind).enters w

end Idp

namespace Flow

variable {f : Flow} {role : String} {c : Credentials} {d : Deadline}

/-- The secret of one-time codes that an environment holds. -/
def codeSecret (f : Flow) (environment : String → Option String) : Option String :=
  f.settings.mfa.secretVar.bind fun envVar =>
    (environment envVar).filter fun value => !Text.isAllBlank value

/-- What is made of the secret is made of no secret, or of the one that the environment holds. -/
theorem watches_secret {A : World σ → Request → Prop} {g : Option String → Attempt Unit} {w : World σ}
    (henv : ∀ name w, A w (.env name)) (hnone : (g none).Watches b A w)
    (hsome : ∀ secret, f.codeSecret w.environment = some secret → (g (some secret)).Watches b A w) :
    (f.secret role >>= g).Watches b A w := by
  unfold secret
  split
  · exact hnone
  · split
    · exact trivial
    · next envVar hvar =>
        have hsecret : f.codeSecret w.environment =
            (w.environment envVar).filter fun value => !Text.isAllBlank value := by
          rw [codeSecret, hvar, Option.bind_some]
        refine Plan.watches_env (henv envVar w) ?_
        dsimp only [Plan.bind, Plan.pure_eq]
        cases hvalue : (w.environment envVar).filter fun value => !Text.isAllBlank value with
        | none => exact trivial
        | some secret => exact hsome secret (hsecret.trans hvalue)

/-- The value is a code of the present time, made of the secret in the environment. -/
def CurrentCode (f : Flow) (w : World σ) (value : String) : Prop :=
  ∃ secret, f.codeSecret w.environment = some secret ∧ f.totp.IsCode secret w value

theorem watches_answerMfa {h : Idp.Handler} (hh : h.BuiltIn) (w : World σ) :
    (f.answerMfa h role).Watches b
      (fun v r => r.Enters fun s value => s = f.settings.mfa.inputSelector.getD (Idp.codeField h.kind) ∧
        ∃ secret, f.codeSecret w.environment = some secret ∧ f.totp.IsCode secret v value) w := by
  unfold answerMfa
  refine watches_secret (fun _ _ => trivial) ?_ fun secret hsecret => ?_
  · refine (Idp.watches_mfa hh _ w).mono fun _ _ hr => hr.mono ?_
    rintro s value ⟨-, secret, hsecret, -⟩
    cases hsecret
  · refine (Idp.watches_mfa hh _ w).mono fun _ _ hr => hr.mono ?_
    rintro s value ⟨hs, secret', hsecret', hcode⟩
    obtain rfl := Option.some.inj hsecret'
    exact ⟨hs, secret, hsecret, hcode⟩

theorem currentCode_of_mem {h : Idp.Handler} (hh : h.BuiltIn) {v : World σ} {e : Event σ}
    (he : e ∈ (enter b d (.mfa, f.answerMfa h role) v).events) {selector value : String}
    (hfill : e.request = .page (.fill selector value)) :
    selector = f.settings.mfa.inputSelector.getD (Idp.codeField h.kind) ∧
      f.CurrentCode e.world value := by
  have hwatch := ((watches_answerMfa hh v).within d.at_).of_mem_trace he
  have hfrozen := Plan.frozen_of_mem_trace b he
  rw [hfill] at hwatch
  obtain ⟨hselector, secret, hsecret, hcode⟩ := hwatch
  exact ⟨hselector, secret, hfrozen.1 ▸ hsecret, hcode⟩

/-! ### What is entered -/

/-- What a login may enter into a field in a world. -/
def Fillable (f : Flow) (h : Idp.Handler) (c : Credentials) (w : World σ) (selector value : String) : Prop :=
  selector = (f.selectorsFor h).username ∧ value = c.username ∨
    selector = (f.selectorsFor h).password ∧ value = c.password ∨
    selector = f.settings.mfa.inputSelector.getD (Idp.codeField h.kind) ∧ f.CurrentCode w value

theorem fillable_of_mem_steps {h : Idp.Handler} (hh : h.BuiltIn) {s : Step × Attempt Unit}
    (hs : s ∈ f.steps h role c) {v : World σ} {e : Event σ} (he : e ∈ (enter b d s v).events)
    {selector value : String} (hfill : e.request = .page (.fill selector value)) :
    f.Fillable h c e.world selector value := by
  have henters : e.request.Enters (f.Enterable h c s.1) :=
    of_mem_events (obeys_of_mem_steps hh hs) he
  rw [hfill] at henters
  rcases mem_steps hs with rfl | rfl | rfl | ⟨prompts, -, rfl⟩ | rfl
  · rcases henters with h | h
    · exact .inl h
    · exact .inr (.inl h)
  · exact .inr (.inl henters)
  · exact .inr (.inr (currentCode_of_mem hh he hfill))
  · exact henters.elim
  · exact henters.elim

/-! ### What comes first -/

/-- A call to the page has succeeded. -/
def Succeeded (call : PageCall) (e : Event σ) : Prop :=
  ∃ w v, e = ⟨w, .page call, some (.ok v)⟩

/-- The wait for the page of the identity provider has succeeded. -/
def Redirected (f : Flow) (e : Event σ) : Prop :=
  match f.settings.idpLoginUrl with
  | some url => Succeeded (.waitForUrl (.contains url) f.settings.timeouts.idpRedirect) e
  | none => Succeeded (.waitForLoadState .domContentLoaded f.settings.timeouts.idpRedirect) e

/-- Something is entered into a field. -/
def IsFill (e : Event σ) : Prop :=
  ∃ selector value, e.request = .page (.fill selector value)

theorem not_isFill_of_enters {e : Event σ} (h : e.request.Enters fun _ _ => False) : ¬ IsFill e := by
  rintro ⟨selector, value, hfill⟩
  rw [hfill] at h
  exact h

theorem not_isFill_of_looksForBanner {e : Event σ} (h : LooksForBanner e.request) : ¬ IsFill e := by
  rintro ⟨selector, value, hfill⟩
  rw [hfill] at h
  exact h

theorem not_isFill_of_not_isCall {e : Event σ} (h : e.isCall = false) : ¬ IsFill e := by
  rintro ⟨selector, value, hfill⟩
  rw [Event.isCall, hfill] at h
  cases h

/-- What begins with a request comes to its time limit there, or goes on with the reply. -/
theorem within_request {α : Type} {r : Request} (g : r.Reply → Plan α) (limit : Nat) (w : World σ) :
    ((Plan.within limit ((Plan.request r).bind g)).run b w).1 = none ∨
      ((Plan.within limit ((Plan.request r).bind g)).run b w).1 =
          ((Plan.within limit (g (w.step b r).reply)).run b (w.step b r).after).1 ∧
        ⟨w, r, some (w.step b r).reply⟩ ∈ (Plan.within limit ((Plan.request r).bind g)).trace b w := by
  have hplan : (Plan.request r).bind g = .ask r g := rfl
  rw [hplan, Plan.within, Plan.run, Plan.trace]
  split
  · exact .inr ⟨rfl, List.mem_cons_self⟩
  · exact .inl rfl

/-- What begins with a call to the page and cannot go on without it succeeds only if the call does. -/
theorem exists_succeeded {call : PageCall} {g : Except PageError call.Value → Plan (Except AuthError Unit)}
    (hg : ∀ e, ∃ failure, g (.error e) = .done (.error failure)) {limit : Nat} {w : World σ}
    (hdone : ((Plan.within limit ((Plan.page call).bind g)).run b w).1 = some (.ok ())) :
    ∃ e ∈ (Plan.within limit ((Plan.page call).bind g)).trace b w, Succeeded call e := by
  rcases within_request (b := b) (r := .page call) g limit w with hrun | ⟨hrun, hmem⟩
  · cases hrun.symm.trans hdone
  · have hdone : ((Plan.within limit (g (b.respond call w.page w.now).outcome)).run b
        (w.step b (.page call)).after).1 = some (.ok ()) := hrun.symm.trans hdone
    have hmem : (⟨w, .page call, some (b.respond call w.page w.now).outcome⟩ : Event σ) ∈
        (Plan.within limit ((Plan.page call).bind g)).trace b w := hmem
    cases hreply : (b.respond call w.page w.now).outcome with
    | error e =>
        obtain ⟨failure, hfailure⟩ := hg e
        rw [hreply, hfailure] at hdone
        cases hdone
    | ok v =>
        rw [hreply] at hmem
        exact ⟨_, hmem, w, v, rfl⟩

theorem exists_of_arrival {w : World σ} (h : (f.arrival b role c w).1.2 = .ok ()) (step : Step)
    (hstep : step ∈ (f.opening role).map Prod.fst) :
    ∃ s ∈ f.opening role, s.1 = step ∧ ∃ v, (enter b (f.deadline w) s v).Done ∧
      enter b (f.deadline w) s v ∈ entries b (f.deadline w) (f.opening role) (f.started b role c w) := by
  rcases run_runSteps b (f.deadline w) role .navigate (f.opening role)
    (f.started b role c w) with ⟨hall, hsteps, -⟩ | ⟨init, e, failure, -, -, -, -, herror⟩
  · rw [← hsteps] at hstep
    obtain ⟨e, he, rfl⟩ := List.mem_map.mp hstep
    obtain ⟨s, hs, v, rfl⟩ := exists_enter_of_mem he
    exact ⟨s, hs, rfl, v, hall _ he, he⟩
  · have hfail : (f.arrival b role c w).1 = (e.step, .error failure) := herror
    rw [hfail] at h
    cases h

theorem exists_goto_of_arrival {w : World σ} (h : (f.arrival b role c w).1.2 = .ok ()) :
    ∃ e ∈ (entries b (f.deadline w) (f.opening role) (f.started b role c w)).flatMap (·.events),
      Succeeded (.goto f.settings.loginUrl f.settings.timeouts.idpRedirect) e := by
  obtain ⟨s, hs, hstep, v, hdone, hmem⟩ := exists_of_arrival h .navigate List.mem_cons_self
  rcases mem_opening hs with rfl | ⟨-, ⟨url, -, rfl⟩ | ⟨-, rfl⟩⟩
  · obtain ⟨e, he, hsucceeded⟩ := exists_succeeded (fun _ => ⟨_, rfl⟩) hdone
    exact ⟨e, List.mem_flatMap.mpr ⟨_, hmem, he⟩, hsucceeded⟩
  · cases hstep
  · cases hstep

theorem exists_redirected_of_arrival {w : World σ} (h : (f.arrival b role c w).1.2 = .ok ())
    (hskip : f.settings.skipIdpRedirect = false) :
    ∃ e ∈ (entries b (f.deadline w) (f.opening role) (f.started b role c w)).flatMap (·.events),
      f.Redirected e := by
  have hwait : Step.waitForIdpRedirect ∈ (f.opening role).map Prod.fst := by
    simp [opening, hskip]
  obtain ⟨s, hs, hstep, v, hdone, hmem⟩ := exists_of_arrival h _ hwait
  unfold Redirected
  rcases mem_opening hs with rfl | ⟨-, ⟨url, hurl, rfl⟩ | ⟨hurl, rfl⟩⟩
  · cases hstep
  · obtain ⟨e, he, hsucceeded⟩ := exists_succeeded (fun _ => ⟨_, rfl⟩) hdone
    rw [hurl]
    exact ⟨e, List.mem_flatMap.mpr ⟨_, hmem, he⟩, hsucceeded⟩
  · obtain ⟨e, he, hsucceeded⟩ := exists_succeeded (fun _ => ⟨_, rfl⟩) hdone
    rw [hurl]
    exact ⟨e, List.mem_flatMap.mpr ⟨_, hmem, he⟩, hsucceeded⟩

/-- What is entered comes behind all that has been seen on the way to the page of the identity
provider. -/
theorem precedes_isFill {G : Event σ → Prop} (w : World σ)
    (hG : (f.arrival b role c w).1.2 = .ok () →
      ∃ e ∈ (entries b (f.deadline w) (f.opening role) (f.started b role c w)).flatMap (·.events), G e) :
    Precedes G IsFill ((f.execute role c).run.trace b w) := by
  obtain ⟨start, hstart, htrace⟩ := f.trace_execute b role c w
  obtain ⟨between, hbetween, hrun⟩ := f.trace_run b role c w
  have hopening : ∀ e ∈ start ++ (entries b (f.deadline w) (f.opening role)
      (f.started b role c w)).flatMap (·.events), ¬ IsFill e := by
    intro e he
    rcases List.mem_append.mp he with he | he
    · exact not_isFill_of_not_isCall (hstart e he)
    · obtain ⟨entry, hentry, he⟩ := List.mem_flatMap.mp he
      obtain ⟨s, hs, v, rfl⟩ := exists_enter_of_mem hentry
      exact not_isFill_of_enters (of_mem_events (obeys_of_mem_opening hs).enters he)
  rw [htrace, hrun]
  cases harrival : (f.arrival b role c w).1.2 with
  | error failure =>
      have htaken : f.taken b role c w =
          (((f.arrival b role c w).1.1, .error failure), (f.arrival b role c w).2) := by
        rw [taken_eq, harrival]
      refine .of_forall_not fun e he => ?_
      dsimp only at he
      rw [List.append_nil] at he
      rcases List.mem_append.mp he with he | he
      · exact hopening e he
      · rw [htaken] at he
        exact not_isFill_of_looksForBanner ((f.obeys_conclude_error role w.now _ failure).of_mem_trace b he)
  | ok u =>
      obtain ⟨g, hg, hgG⟩ := hG harrival
      dsimp only
      rw [← List.append_assoc, List.append_assoc]
      exact .append_of_mem hopening (List.mem_append_right start hg) hgG

/-! ### Clicks -/

/-- The request is a click on an element. -/
def Clicks (selector : String) : Request → Bool
  | .page (.click s) => s = selector
  | _ => false

theorem atMost_submitForm (ctx : Idp.Context) (s : Selectors) (selector : String) :
    (Idp.submitForm ctx s).run.AtMost (Clicks selector) 1 := by
  unfold Idp.submitForm
  refine Attempt.atMost_bind (n := 1) (Attempt.atMost_page _ _ _ _) (m := 0) fun _ => ?_
  refine Attempt.Obeys.atMost (E := fun _ => True) ?_
  refine (Idp.obeys_rest fun _ => rfl).bind fun _ => ?_
  refine Attempt.obeys_of_bind (Page.obeys_sees rfl) fun seen => ?_
  dsimp only
  split
  · refine Attempt.obeys_of_bind (Idp.obeys_isEmptyField rfl) fun empty => ?_
    split
    · exact Attempt.obeys_request_bind rfl fun _ => Attempt.obeys_pure _
    · exact Attempt.obeys_pure _
  · exact Attempt.obeys_pure _

theorem atMost_submit (ctx : Idp.Context) (c : Credentials) (s : Selectors) (selector : String) :
    (submit ctx c s).run.AtMost (Clicks selector) 2 := by
  have hfill : (ctx.page .credentials (.fill s.password c.password)).Obeys
      (fun r => Clicks selector r = false) fun _ => True := Attempt.obeys_page rfl fun _ => trivial
  unfold submit
  refine Attempt.atMost_bind (atMost_submitForm ctx s selector) (m := 1) fun became => ?_
  split
  · refine Attempt.atMost_bind (n := 0) hfill.atMost (m := 1) fun _ => ?_
    exact Attempt.atMost_bind (atMost_submitForm ctx s selector) (m := 0) fun _ => trivial
  · exact trivial

/-- Where the form is submitted, the element that submits it is clicked twice at most. -/
theorem countP_clicks {w : World σ} {e : Entry σ} (he : e ∈ f.entered b role c w)
    (hstep : e.step = .submitForm) (selector : String) :
    e.events.countP (fun event => Clicks selector event.request) ≤ 2 := by
  obtain ⟨s, v, rfl, hs⟩ := exists_enter_of_mem_entered he
  rcases hs with hs | hs
  · rcases mem_opening hs with rfl | ⟨-, ⟨url, -, rfl⟩ | ⟨-, rfl⟩⟩
    · cases hstep
    · cases hstep
    · cases hstep
  · rcases mem_steps hs with rfl | rfl | rfl | ⟨prompts, -, rfl⟩ | rfl
    · cases hstep
    · exact ((atMost_submit _ c _ selector).within _).countP_trace v
    · cases hstep
    · cases hstep
    · cases hstep

/-! ### Whole logins -/

variable (b f role c) in
/-- The calls of a login to the page are those of its steps, and behind a step that fails those that look
for a banner. -/
theorem calls_execute (w : World σ) : ∃ banner : List (Event σ),
    ((f.execute role c).run.trace b w).filter Event.isCall =
        ((f.entered b role c w).flatMap (·.events)).filter Event.isCall ++ banner ∧
      (∀ e ∈ banner, LooksForBanner e.request) ∧ ((f.taken b role c w).1.2 = .ok () → banner = []) := by
  obtain ⟨start, hstart, htrace⟩ := f.trace_execute b role c w
  have hnone : start.filter Event.isCall = [] :=
    List.filter_eq_nil_iff.mpr fun e he => by simp [hstart e he]
  rw [htrace, List.filter_append, List.filter_append, hnone, calls_run, List.nil_append]
  generalize f.taken b role c w = taken
  obtain ⟨⟨step, r⟩, w'⟩ := taken
  refine ⟨((f.conclude role w.now (step, r)).trace b w').filter Event.isCall, rfl, fun e he => ?_,
    fun hok => ?_⟩
  · obtain ⟨he, hcall⟩ := List.mem_filter.mp he
    cases r with
    | ok u =>
        have hnocall := (f.obeys_conclude_ok role w.now step).of_mem_trace b he
        rw [Event.isCall, hnocall] at hcall
        cases hcall
    | error failure => exact (f.obeys_conclude_error role w.now step failure).of_mem_trace b he
  · obtain rfl : r = .ok () := hok
    refine List.filter_eq_nil_iff.mpr fun e he => ?_
    have hnocall := (f.obeys_conclude_ok role w.now step).of_mem_trace b he
    rw [Event.isCall, hnocall]
    decide

theorem execute_eq_ok_iff (w : World σ) :
    (∃ r, ((f.execute role c).run.run b w).1 = .ok r) ↔ (f.taken b role c w).1.2 = .ok () := by
  rw [run_execute]
  generalize f.taken b role c w = taken
  obtain ⟨⟨step, r⟩, w'⟩ := taken
  cases r with
  | ok u => exact ⟨fun _ => rfl, fun _ => (f.obeys_conclude_ok role w.now step).run b w'⟩
  | error failure =>
      obtain ⟨e, he⟩ := (f.obeys_conclude_error role w.now step failure).run b w'
      refine ⟨?_, fun h => (nomatch h)⟩
      rintro ⟨s, hs⟩
      cases he.symm.trans hs

theorem fillable_of_mem_trace (hf : ∀ h ∈ f.registry.handlers, h.BuiltIn) {w : World σ} {e : Event σ}
    (he : e ∈ (f.execute role c).run.trace b w) {selector value : String}
    (hfill : e.request = .page (.fill selector value)) :
    f.Fillable (f.handlerAt b role c w) c e.world selector value := by
  obtain ⟨banner, hcalls, hbanner, -⟩ := f.calls_execute b role c w
  have hcall : e.isCall = true := by rw [Event.isCall, hfill]; rfl
  have hmem := List.mem_filter.mpr ⟨he, hcall⟩
  rw [hcalls] at hmem
  rcases List.mem_append.mp hmem with hmem | hmem
  · obtain ⟨hmem, -⟩ := List.mem_filter.mp hmem
    obtain ⟨entry, hentry, hmem⟩ := List.mem_flatMap.mp hmem
    obtain ⟨s, v, rfl, hs⟩ := exists_enter_of_mem_entered hentry
    rcases hs with hs | hs
    · have hno := not_isFill_of_enters (of_mem_events (obeys_of_mem_opening hs).enters hmem)
      exact absurd ⟨selector, value, hfill⟩ hno
    · exact fillable_of_mem_steps (builtIn_handlerFor hf _) hs hmem hfill
  · exact absurd ⟨selector, value, hfill⟩ (not_isFill_of_looksForBanner (hbanner e hmem))

variable (b f role c) in
/-- **The order of a login.**  The steps that are due are entered one after the other, each once the one before
has succeeded, and the login succeeds if all of them do.  The calls to the page are those of the steps, and
those that look for a banner behind a step that has failed.  Nothing is entered before the start page and the
page of the identity provider are there; only the user name, the password and current codes are entered, each
into its own field; and the form is submitted twice at most. -/
theorem execute_steps (hf : ∀ h ∈ f.registry.handlers, h.BuiltIn) (w : World σ) :
    (((f.entered b role c w).map (·.step) <+: f.enabled (f.handlerAt b role c w)) ∧
      (∀ e ∈ (f.entered b role c w).dropLast, e.Done) ∧
      ((∃ r, ((f.execute role c).run.run b w).1 = .ok r) ↔
        (f.entered b role c w).map (·.step) = f.enabled (f.handlerAt b role c w) ∧
          ∀ e ∈ f.entered b role c w, e.Done)) ∧
    (∃ banner : List (Event σ),
      ((f.execute role c).run.trace b w).filter Event.isCall =
          ((f.entered b role c w).flatMap (·.events)).filter Event.isCall ++ banner ∧
        (∀ e ∈ banner, LooksForBanner e.request) ∧
        ((∃ r, ((f.execute role c).run.run b w).1 = .ok r) → banner = [])) ∧
    Precedes (Succeeded (.goto f.settings.loginUrl f.settings.timeouts.idpRedirect)) IsFill
      ((f.execute role c).run.trace b w) ∧
    (f.settings.skipIdpRedirect = false →
      Precedes f.Redirected IsFill ((f.execute role c).run.trace b w)) ∧
    (∀ e ∈ (f.execute role c).run.trace b w, ∀ selector value,
      e.request = .page (.fill selector value) →
        f.Fillable (f.handlerAt b role c w) c e.world selector value) ∧
    ∀ e ∈ f.entered b role c w, e.step = .submitForm →
      e.events.countP
        (fun event => Clicks (f.selectorsFor (f.handlerAt b role c w)).submit event.request) ≤ 2 := by
  obtain ⟨banner, hcalls, hbanner, hnone⟩ := f.calls_execute b role c w
  refine ⟨?_, ⟨banner, hcalls, hbanner, fun hok => hnone ((execute_eq_ok_iff w).mp hok)⟩,
    precedes_isFill w exists_goto_of_arrival,
    fun hskip => precedes_isFill w fun h => exists_redirected_of_arrival h hskip,
    fun e he selector value hfill => fillable_of_mem_trace hf he hfill,
    fun e he hstep => countP_clicks he hstep _⟩
  rw [execute_eq_ok_iff]
  rcases f.run_entered b role c w with
    ⟨hdone, hsteps, hok⟩ | ⟨init, e, failure, hentered, hinit, hsteps, hfails, herror⟩
  · exact ⟨hsteps ▸ List.prefix_refl _, fun e he => hdone e ((List.dropLast_sublist _).subset he),
      fun _ => ⟨hsteps, hdone⟩, fun _ => hok⟩
  · refine ⟨hsteps, ?_, ?_, ?_⟩
    · rw [hentered, List.dropLast_concat]
      exact hinit
    · intro hok
      rw [herror] at hok
      cases hok
    · rintro ⟨-, hdone⟩
      have hlast : e.Done := hdone e (hentered ▸ List.mem_append_right init List.mem_cons_self)
      exact absurd hlast hfails.not_done

/-- A page on which every call succeeds at once. -/
def smoothPage : PageBehaviour Unit where
  url _ _ := "https://app.example/home"
  respond c _ _ :=
    { duration := 0
      outcome := match c with
        | .isVisible _ => .ok true
        | .inputValue _ => .ok ""
        | .textContent _ => .ok none
        | .evaluate _ => .ok .null
        | .storageState => .ok {}
        | .goto .. | .waitForUrl .. | .waitForSelector .. | .waitForLoadState .. | .fill .. | .click _
        | .reload _ | .clearCookies => .ok ()
      page := ()
      abandoned := fun _ => () }

/-- A login at an identity provider of no known family. -/
def plainFlow : Flow where
  settings :=
    { idp := .generic
      loginUrl := "https://app.example/login"
      success := { selector := some "#home" }
      settle := 0 }
  registry := {}
  logger := .standard

/-- Where every call succeeds, all steps that are due are entered. -/
theorem execute_steps_plainFlow :
    (plainFlow.entered smoothPage "admin" ⟨"ada", "secret"⟩ { page := () }).map (·.step) =
      [.navigate, .waitForIdpRedirect, .fillCredentials, .submitForm, .waitForSuccess] := by
  have hvalue : ((plainFlow.execute "admin" ⟨"ada", "secret"⟩).run.run smoothPage { page := () }).1.toOption =
      some ⟨"https://app.example/home", 0⟩ := by decide +kernel
  have hok : ∃ r, ((plainFlow.execute "admin" ⟨"ada", "secret"⟩).run.run smoothPage { page := () }).1 =
      .ok r := by
    cases hrun : ((plainFlow.execute "admin" ⟨"ada", "secret"⟩).run.run smoothPage { page := () }).1 with
    | error e =>
        rw [hrun] at hvalue
        cases hvalue
    | ok r => exact ⟨r, rfl⟩
  obtain ⟨⟨-, -, hiff⟩, -⟩ := plainFlow.execute_steps smoothPage "admin" ⟨"ada", "secret"⟩ (fun _ h => h)
    { page := () }
  exact (hiff.mp hok).1

end Flow

end SignOn
