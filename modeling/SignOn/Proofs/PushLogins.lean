import SignOn.Proofs.PushApproval
import SignOn.Proofs.TimeLimit

/-! # Pushes in a login

Two families of identity providers take a push as second factor.  Their handlers look which host the page shows
when the step starts, may ask for the push to be sent, and then wait until the page has left that host.

* `Plan.Patient` holds of plans whose requests have no limits of their own.  If such a plan is not cut off by a
  limit, it comes to what it comes to without one (`Patient.run_within`).
* `Idp.mfa_push` is what the two handlers have in common, `Flow.run_answerMfa_push` the step of a login without the
  time limit.
* `Flow.done_answerMfa_push_iff` says when the step is done within the time limit, and
  `Flow.result_answerMfa_push_of_stays` what becomes of it if the page stays where it is.
* `Flow.push_step` puts them together for the steps that a login enters: they go by the host that the page shows when
  the step starts, be it the host that the credentials have been submitted on or not. -/

namespace SignOn

/-! ### Plans without limits -/

namespace Plan

/-- No request of the plan has a limit of its own. -/
def Patient {α : Type} : Plan α → Prop
  | .done _ => True
  | .ask _ next => ∀ x, (next x).Patient
  | .askBy .. => False

namespace Patient

variable {α β σ : Type} {b : PageBehaviour σ} {limit : Nat}

theorem bind {p : Plan α} {f : α → Plan β} (hp : p.Patient) (hf : ∀ a, (f a).Patient) : (p.bind f).Patient := by
  induction p with
  | done a => exact hf a
  | ask r next ih => exact fun x => ih x (hp x)
  | askBy l r next ih => exact hp.elim

/-- What a limit does not cut off comes to what it comes to without the limit. -/
theorem run_within {p : Plan α} (hp : p.Patient) {w : World σ} {a : α}
    (h : ((p.within limit).run b w).1 = some a) :
    (p.within limit).run b w = (some (p.run b w).1, (p.run b w).2) := by
  induction p generalizing w with
  | done a => rfl
  | ask r next ih =>
      rw [within] at h ⊢
      rcases Bool.eq_false_or_eq_true (inTime w.now (w.step b r).duration limit) with hdone | hdone
      · rw [run_askBy_of_inTime _ hdone] at h ⊢
        exact ih _ (hp _) h
      · rw [run_askBy_of_late _ hdone] at h
        cases h
  | askBy l r next ih => exact hp.elim

end Patient

end Plan

namespace Attempt

variable {α β : Type}

theorem patient_of {p : Plan α} (hp : p.Patient) : (Attempt.of p).run.Patient :=
  hp.bind fun _ => trivial

theorem patient_bind {p : Attempt α} {f : α → Attempt β} (hp : p.run.Patient) (hf : ∀ a, (f a).run.Patient) :
    (p >>= f).run.Patient := by
  refine Plan.Patient.bind hp fun r => ?_
  cases r with
  | ok a => exact hf a
  | error e => exact trivial

theorem patient_page {role : String} {phase : AuthPhase} {c : PageCall} : (page role phase c).run.Patient := by
  intro r
  cases r with
  | ok v => exact trivial
  | error e => exact trivial

end Attempt

namespace Page

theorem patient_sees (selector : String) : (sees selector).Patient := by
  intro r
  match r with
  | .ok true => exact trivial
  | .ok false => exact trivial
  | .error e => exact trivial

theorem patient_firstVisible (selectors : List String) : (firstVisible selectors).Patient := by
  induction selectors with
  | nil => exact trivial
  | cons s rest ih =>
      rw [firstVisible]
      refine (patient_sees s).bind fun seen => ?_
      split
      · exact trivial
      · exact ih

end Page

namespace Idp

variable {ctx : Context}

theorem patient_awaitLeaving (host : Option String) (timeout interval deadline fuel : Nat) :
    (awaitLeaving ctx host timeout interval deadline fuel).run.Patient := by
  induction fuel with
  | zero => exact trivial
  | succ fuel ih =>
      rw [awaitLeaving]
      refine Attempt.patient_bind (Attempt.patient_of fun _ => trivial) fun shown => ?_
      split
      · exact trivial
      · refine Attempt.patient_bind (Attempt.patient_of fun _ => trivial) fun now => ?_
        split
        · exact trivial
        · exact Attempt.patient_bind (Attempt.patient_of fun _ => trivial) fun _ => ih

theorem patient_awaitPush (ch : Challenge) (host : Option String) : (awaitPush ctx ch host).run.Patient := by
  unfold awaitPush
  refine Attempt.patient_bind (Attempt.patient_of fun _ => trivial) fun start => ?_
  refine Attempt.patient_bind (Attempt.patient_of fun _ => trivial) fun _ => ?_
  exact patient_awaitLeaving host ch.mfa.pushTimeoutMs (max ctx.probe.interval 1)
    (start + ch.mfa.pushTimeoutMs) (ch.mfa.pushTimeoutMs + 2)

/-! ### Asking for a push -/

/-- Ask for the push to be sent, where the page offers a button for it. -/
def requestPush (h : Handler) (ctx : Context) : Attempt Unit := do
  if h.kind = .okta then
    if let some button := ← Attempt.of (Page.firstVisible Okta.sendPush) then
      ctx.page .mfa (.click button)

theorem patient_requestPush (h : Handler) : (requestPush h ctx).run.Patient := by
  unfold requestPush
  split
  · refine Attempt.patient_bind (Attempt.patient_of (Page.patient_firstVisible _)) fun found => ?_
    cases found with
    | some button => exact Attempt.patient_page
    | none => exact trivial
  · exact trivial

/-- Both handlers look at the host first, then ask for the push, and then wait. -/
theorem mfa_push {h : Handler} (hh : h = AzureAd.handler ∨ h = Okta.handler) (ch : Challenge)
    (hkind : ch.mfa.kind = .push) :
    h.mfa ctx ch =
      Attempt.of Page.host >>= fun host => requestPush h ctx >>= fun _ => awaitPush ctx ch host := by
  rcases hh with rfl | rfl
  · simp only [AzureAd.handler, hkind]
    rfl
  · simp only [Okta.handler, hkind]
    refine congrArg (Attempt.of Page.host >>= ·) (funext fun host => ?_)
    change _ = (Attempt.of (Page.firstVisible Okta.sendPush) >>= _) >>= _
    rw [bind_assoc]
    refine congrArg (Attempt.of (Page.firstVisible Okta.sendPush) >>= ·) (funext fun found => ?_)
    cases found with
    | some button => rfl
    | none => rfl

end Idp

/-! ### The step of a login -/

namespace Flow

variable {σ : Type} {b : PageBehaviour σ} {f : Flow} {role : String} {c : Credentials} {h : Idp.Handler}

/-- The push that a login waits for; it takes no secret. -/
def push (f : Flow) : Idp.Challenge :=
  ⟨f.settings.mfa, none⟩

section

variable (hh : h = Idp.AzureAd.handler ∨ h = Idp.Okta.handler) (hkind : f.settings.mfa.kind = .push)

include hh hkind

theorem answerMfa_push :
    f.answerMfa h role =
      Attempt.of Page.host >>= fun host => Idp.requestPush h (f.context role) >>= fun _ =>
        Idp.awaitPush (f.context role) f.push host := by
  rw [← Idp.mfa_push hh f.push hkind]
  unfold answerMfa secret
  rw [hkind]
  rfl

theorem patient_answerMfa_push : (f.answerMfa h role).run.Patient := by
  rw [answerMfa_push hh hkind]
  refine Attempt.patient_bind (Attempt.patient_of fun _ => trivial) fun host => ?_
  exact Attempt.patient_bind (Idp.patient_requestPush h) fun _ => Idp.patient_awaitPush _ host

/-- Without the time limit of the login, the step asks for the push and waits until the page has left the host
that it shows at the start. -/
theorem run_answerMfa_push {v u : World σ}
    (hsent : (Idp.requestPush h (f.context role)).run.run b v = (.ok (), u)) :
    (f.answerMfa h role).run.run b v =
      (Idp.awaitPush (f.context role) f.push (Idp.hostAt b v.page v.now)).run.run b u := by
  rw [answerMfa_push hh hkind, Attempt.run_of_bind, Plan.run_bind, Idp.run_host]
  dsimp only
  exact Attempt.run_bind_of_ok hsent

theorem run_answerMfa_push_error {v u : World σ} {e : AuthError}
    (hsent : (Idp.requestPush h (f.context role)).run.run b v = (.error e, u)) :
    (f.answerMfa h role).run.run b v = (.error e, u) := by
  rw [answerMfa_push hh hkind, Attempt.run_of_bind, Plan.run_bind, Idp.run_host]
  dsimp only
  exact Attempt.run_bind_of_error hsent

end

theorem result_enter_of_now_le {d : Deadline} {s : Step × Attempt Unit} {v : World σ}
    (h : (s.2.run.run b v).2.now ≤ d.at_) : (enter b d s v).result = some (s.2.run.run b v).1 :=
  congrArg Prod.fst (Plan.run_within h)

/-- A patient step is done exactly if it succeeds without the time limit and is over by then. -/
theorem done_enter_iff {d : Deadline} {s : Step × Attempt Unit} {v : World σ} (hs : s.2.run.Patient)
    (hv : v.now ≤ d.at_) :
    (enter b d s v).Done ↔ (s.2.run.run b v).1 = .ok () ∧ (s.2.run.run b v).2.now ≤ d.at_ := by
  constructor
  · intro hdone
    have hrun : (Plan.within d.at_ s.2.run).run b v = _ := hs.run_within hdone
    have hresult : ((Plan.within d.at_ s.2.run).run b v).1 = some (.ok ()) := hdone
    have hends : (Plan.within d.at_ s.2.run).EndsBy d.at_ := Plan.endsBy_within s.2.run
    have hend : ((Plan.within d.at_ s.2.run).run b v).2.now ≤ d.at_ := (hends.run hv).1
    rw [hrun] at hresult hend
    exact ⟨Option.some.inj hresult, hend⟩
  · rintro ⟨hok, hend⟩
    exact (result_enter_of_now_le hend).trans (congrArg some hok)

section

variable (hh : h = Idp.AzureAd.handler ∨ h = Idp.Okta.handler) (hkind : f.settings.mfa.kind = .push)
  {d : Deadline} {v u : World σ}

include hh hkind

/-- Once the push has been asked for, the step is done exactly if the first look that sees another host is not behind
the last one and comes within the time limit. -/
theorem done_answerMfa_push_iff (hv : v.now ≤ d.at_)
    (hsent : (Idp.requestPush h (f.context role)).run.run b v = (.ok (), u)) :
    (enter b d (.mfa, f.answerMfa h role) v).Done ↔
      ∃ k ≤ Idp.lastLook (f.context role) f.settings.mfa.pushTimeoutMs,
        IsLeast {k | Idp.hostAt b u.page (u.now + k * Idp.lookInterval (f.context role)) ≠
          Idp.hostAt b v.page v.now} k ∧ u.now + k * Idp.lookInterval (f.context role) ≤ d.at_ := by
  have hrun := run_answerMfa_push hh hkind hsent
  refine (done_enter_iff (patient_answerMfa_push hh hkind) hv).trans ?_
  dsimp only
  rw [hrun]
  constructor
  · rintro ⟨hok, hend⟩
    rcases Idp.leaves_or_stays b (f.context role) f.push (Idp.hostAt b v.page v.now) u with
      ⟨k, hk, hleast⟩ | hstays
    · rw [Idp.run_awaitPush_of_leaves f.push hleast hk] at hend
      exact ⟨k, hk, hleast, hend⟩
    · rw [Idp.run_awaitPush_of_stays f.push hstays] at hok
      cases hok
  · rintro ⟨k, hk, hleast, hend⟩
    rw [Idp.run_awaitPush_of_leaves f.push hleast hk]
    exact ⟨rfl, hend⟩

theorem not_done_answerMfa_push {e : AuthError} (hv : v.now ≤ d.at_)
    (hsent : (Idp.requestPush h (f.context role)).run.run b v = (.error e, u)) :
    ¬ (enter b d (.mfa, f.answerMfa h role) v).Done := by
  intro hdone
  have hok := ((done_enter_iff (patient_answerMfa_push hh hkind) hv).mp hdone).1
  dsimp only at hok
  rw [run_answerMfa_push_error hh hkind hsent] at hok
  cases hok

/-- A step whose looks all see the same host fails behind the last one. -/
theorem result_answerMfa_push_of_stays
    (hsent : (Idp.requestPush h (f.context role)).run.run b v = (.ok (), u))
    (hstays : ∀ k ≤ Idp.lastLook (f.context role) f.settings.mfa.pushTimeoutMs,
      Idp.hostAt b u.page (u.now + k * Idp.lookInterval (f.context role)) = Idp.hostAt b v.page v.now)
    (hlimit : u.now + Idp.lastLook (f.context role) f.settings.mfa.pushTimeoutMs *
      Idp.lookInterval (f.context role) ≤ d.at_) :
    (enter b d (.mfa, f.answerMfa h role) v).result =
      some (.error (Idp.pushTimeout (f.context role) f.settings.mfa.pushTimeoutMs)) := by
  have hrun := (run_answerMfa_push hh hkind hsent).trans (Idp.run_awaitPush_of_stays f.push hstays)
  have hend : ((f.answerMfa h role).run.run b v).2.now ≤ d.at_ := by
    rw [hrun]
    exact hlimit
  rw [result_enter_of_now_le hend]
  dsimp only
  rw [hrun]
  rfl

end

theorem exists_enter_mfa {w : World σ} {e : Entry σ} (he : e ∈ f.entered b role c w) (hmfa : e.step = .mfa) :
    ∃ v, e = enter b (f.deadline w) (.mfa, f.answerMfa (f.handlerAt b role c w) role) v := by
  obtain ⟨s, v, rfl, hs⟩ := exists_enter_of_mem_entered he
  have hstep : s.1 = .mfa := hmfa
  rcases hs with hs | hs
  · rcases mem_opening hs with rfl | ⟨-, ⟨url, -, rfl⟩ | ⟨-, rfl⟩⟩ <;> cases hstep
  · rcases mem_steps hs with rfl | rfl | rfl | ⟨prompts, -, rfl⟩ | rfl
    · cases hstep
    · cases hstep
    · exact ⟨v, rfl⟩
    · cases hstep
    · cases hstep

/-- **A push is approved by leaving the host that the page shows when the step starts.**  In a login with a push
as second factor, let the step start in some world, and let the first look be made once the push has been asked
for.  The step is done exactly if asking did not fail, one of the looks up to the last one sees another host than
the one shown when the step started, and the first such look comes within the time of the login.  If all looks see
that one host, be it the host of the provider or the one that the login leads to, the step fails with the timeout of
the push, provided that the time of the login is not over before. -/
theorem push_step (b : PageBehaviour σ) (f : Flow) (role : String) (c : Credentials) (w : World σ)
    (hkind : f.settings.mfa.kind = .push)
    (hh : f.handlerAt b role c w = Idp.AzureAd.handler ∨ f.handlerAt b role c w = Idp.Okta.handler)
    {e : Entry σ} (he : e ∈ f.entered b role c w) (hmfa : e.step = .mfa) :
    let shown := Idp.hostAt b e.world.page e.world.now
    let sent := (Idp.requestPush (f.handlerAt b role c w) (f.context role)).run.run b e.world
    let timeout := f.settings.mfa.pushTimeoutMs
    let interval := max f.settings.probe.interval 1
    let last := (timeout + interval - 1) / interval
    let leaves (k : Nat) : Prop := Idp.hostAt b sent.2.page (sent.2.now + k * interval) ≠ shown
    let limit := w.now + f.settings.timeouts.loginFlow
    (e.Done ↔ sent.1 = .ok () ∧ ∃ k ≤ last, IsLeast {k | leaves k} k ∧ sent.2.now + k * interval ≤ limit) ∧
      (sent.1 = .ok () → (∀ k ≤ last, ¬ leaves k) → sent.2.now + last * interval ≤ limit →
        e.result = some (.error (Idp.pushTimeout (f.context role) timeout))) := by
  have hstart := now_le_of_mem_entered he
  obtain ⟨v, rfl⟩ := exists_enter_mfa he hmfa
  generalize f.handlerAt b role c w = h at hh
  intro shown sent timeout interval last leaves limit
  constructor
  · cases hsent : sent.1 with
    | error error =>
        refine iff_of_false (not_done_answerMfa_push hh hkind hstart (Prod.ext hsent rfl)) ?_
        rintro ⟨hok, -⟩
        cases hok
    | ok a =>
        refine (done_answerMfa_push_iff hh hkind hstart (Prod.ext hsent rfl)).trans ?_
        exact (and_iff_right rfl).symm
  · intro hsent hstays hlimit
    exact result_answerMfa_push_of_stays hh hkind (Prod.ext hsent rfl)
      (fun k hk => Classical.not_not.mp (hstays k hk)) hlimit

/-- A login with a push that may be waited for one second, and is looked at every second. -/
def pushFlow : Flow where
  settings :=
    { idp := .okta
      loginUrl := "https://app.example/login"
      skipIdpRedirect := true
      mfa := { kind := .push, pushTimeout := some 1000 }
      success := { url := some (.contains "/home") }
      probe := { timeout := 0, interval := 1000 }
      settle := 500 }
  registry := {}
  logger := .standard

def pushSteps (ms : Nat) : List (Entry Unit) :=
  pushFlow.entered (Idp.partingAfter ms) "admin" ⟨"ada", "secret"⟩ { page := () }

theorem run_firstVisible_partingAfter (ms : Nat) (selectors : List String) (w : World Unit) :
    ∃ u, (Page.firstVisible selectors).run (Idp.partingAfter ms) w = (none, u) ∧ u.now = w.now := by
  induction selectors generalizing w with
  | nil => exact ⟨w, rfl, rfl⟩
  | cons s rest ih =>
      have hsees : (Page.sees s).run (Idp.partingAfter ms) w = (false, w.noteCall (.isVisible s)) := rfl
      obtain ⟨u, hrun, hnow⟩ := ih (w.noteCall (.isVisible s))
      refine ⟨u, ?_, hnow⟩
      rw [Page.firstVisible, Plan.bind_eq, Plan.run_bind_of_eq _ hsees]
      exact hrun

theorem run_requestPush_partingAfter (ms : Nat) (w : World Unit) :
    ∃ u, (Idp.requestPush Idp.Okta.handler (pushFlow.context "admin")).run.run (Idp.partingAfter ms) w =
      (.ok (), u) ∧ u.now = w.now := by
  obtain ⟨u, hrun, hnow⟩ := run_firstVisible_partingAfter ms Idp.Okta.sendPush w
  have hkind : Idp.Okta.handler.kind = .okta := rfl
  refine ⟨u, ?_, hnow⟩
  rw [Idp.requestPush, if_pos hkind, Attempt.run_of_bind, Plan.run_bind, hrun]
  rfl

/-- The second look is the first one that sees the application, if the page shows the provider when the step
starts. -/
theorem push_step_parting : ∃ e ∈ pushSteps 800, e.step = .mfa ∧ e.Done := by
  have hmem : (Step.mfa, 500) ∈ (pushSteps 800).map fun e => (e.step, e.world.now) := by decide +kernel
  obtain ⟨e, he, hview⟩ := List.mem_map.mp hmem
  obtain ⟨hmfa, hnow⟩ := Prod.mk.inj hview
  obtain ⟨u, hsent, hu⟩ := run_requestPush_partingAfter 800 e.world
  have hhandler :
      pushFlow.handlerAt (Idp.partingAfter 800) "admin" ⟨"ada", "secret"⟩ { page := () } = Idp.Okta.handler := rfl
  obtain ⟨hdone, -⟩ := push_step (Idp.partingAfter 800) pushFlow "admin" ⟨"ada", "secret"⟩ { page := () } rfl
    (.inr hhandler) he hmfa
  refine ⟨e, he, hmfa, hdone.mpr ?_⟩
  rw [hhandler, hsent]
  dsimp only
  rw [hu, hnow]
  refine ⟨rfl, 1, by decide, ⟨?_, ?_⟩, by decide⟩
  · rw [Set.mem_ofPred_eq, Idp.hostAt_partingAfter, Idp.hostAt_partingAfter]
    decide
  · intro k hk
    rw [Set.mem_ofPred_eq, Idp.hostAt_partingAfter, Idp.hostAt_partingAfter] at hk
    refine Nat.pos_of_ne_zero ?_
    rintro rfl
    exact hk rfl

/-- **An approval during the settle time is missed.**  The credentials are submitted to the provider, and the page
has gone to the application when the second factor is due; the push times out all the same. -/
theorem approved_push_missed :
    (pushSteps 300).map (fun e => (e.step, e.world.now)) =
        [(.navigate, 0), (.fillCredentials, 0), (.submitForm, 0), (.mfa, 500)] ∧
      Url.hostOf? ((Idp.partingAfter 300).url () 0) = some "dev-1.okta.com" ∧
      (∀ t ≥ 300, Url.hostOf? ((Idp.partingAfter 300).url () t) = some "app.example") ∧
      ∃ e ∈ pushSteps 300, e.step = .mfa ∧
        e.result = some (.error (Idp.pushTimeout (pushFlow.context "admin") 1000)) := by
  have hsteps : (pushSteps 300).map (fun e => (e.step, e.world.now)) =
      [(.navigate, 0), (.fillCredentials, 0), (.submitForm, 0), (.mfa, 500)] := by decide +kernel
  refine ⟨hsteps, Idp.hostAt_partingAfter 300 0, fun t ht => ?_, ?_⟩
  · exact (Idp.hostAt_partingAfter 300 t).trans (if_neg (Nat.not_lt.mpr ht))
  · have hmem : (Step.mfa, 500) ∈ (pushSteps 300).map fun e => (e.step, e.world.now) := by
      rw [hsteps]
      decide
    obtain ⟨e, he, hview⟩ := List.mem_map.mp hmem
    obtain ⟨hmfa, hnow⟩ := Prod.mk.inj hview
    refine ⟨e, he, hmfa, ?_⟩
    obtain ⟨v, rfl⟩ := exists_enter_mfa he hmfa
    obtain ⟨u, hsent, hu⟩ := run_requestPush_partingAfter 300 v
    have hv : v.now = 500 := hnow
    refine result_answerMfa_push_of_stays (.inr rfl) rfl hsent (fun k _ => ?_) ?_
    · rw [Idp.hostAt_partingAfter, Idp.hostAt_partingAfter, hu, hv, if_neg (by omega), if_neg (by omega)]
    · rw [hu, hv]
      decide

end Flow

end SignOn
