import SignOn.Proofs.FlowOrder
import SignOn.Proofs.Worlds

/-! # The time limit of a login

* `Plan.EndsBy` holds of plans that wait for nothing beyond a time: a request that may take time is given up by then.
  Such a plan starts no request behind the time and is at its end by then (`EndsBy.run`), whatever the page does.
* `Plan.within` makes every plan end by its limit, and changes nothing for one that is done by then anyway
  (`run_within`); what is cut off ends at the limit (`now_of_run_within`).
* `execute_in_time` is about whole logins. -/

namespace SignOn

def Request.Immediate : Request → Prop
  | .page _ | .race .. | .sleep _ => False
  | _ => True

theorem World.duration_step {σ : Type} (b : PageBehaviour σ) {r : Request} (h : r.Immediate) (w : World σ) :
    (w.step b r).duration = 0 := by
  cases r with
  | page | race | sleep => exact h.elim
  | _ => rfl

namespace Plan

section

variable {α σ : Type} {b : PageBehaviour σ} {w : World σ} {l : Nat} {r : Request}
variable (next : Option r.Reply → Plan α)

theorem run_askBy_of_inTime (h : inTime w.now (w.step b r).duration l = true) :
    (Plan.askBy l r next).run b w = (next (some (w.step b r).reply)).run b (w.step b r).after :=
  if_pos h

theorem run_askBy_of_late (h : inTime w.now (w.step b r).duration l = false) :
    (Plan.askBy l r next).run b w = (next none).run b ((w.step b r).abandoned (l - w.now)) :=
  if_neg (Bool.eq_false_iff.mp h)

theorem trace_askBy_of_inTime (h : inTime w.now (w.step b r).duration l = true) :
    (Plan.askBy l r next).trace b w =
      ⟨w, r, some (w.step b r).reply⟩ :: (next (some (w.step b r).reply)).trace b (w.step b r).after :=
  if_pos h

theorem trace_askBy_of_late (h : inTime w.now (w.step b r).duration l = false) :
    (Plan.askBy l r next).trace b w = ⟨w, r, none⟩ :: (next none).trace b ((w.step b r).abandoned (l - w.now)) :=
  if_neg (Bool.eq_false_iff.mp h)

end

/-- Everything that may take time is given up by a time. -/
def EndsBy {α : Type} (limit : Nat) : Plan α → Prop
  | .done _ => True
  | .ask r next => r.Immediate ∧ ∀ x, (next x).EndsBy limit
  | .askBy l _ next => l ≤ limit ∧ ∀ x, (next x).EndsBy limit

variable {α β σ : Type} {limit : Nat} {b : PageBehaviour σ} {w : World σ}

theorem endsBy_within (p : Plan α) : (p.within limit).EndsBy limit := by
  induction p with
  | done a => trivial
  | ask r next ih =>
      rw [within]
      refine ⟨Nat.le_refl limit, fun x => ?_⟩
      cases x with
      | none => trivial
      | some x => exact ih x
  | askBy l r next ih =>
      rw [within]
      exact ⟨Nat.min_le_right l limit, ih⟩

theorem endsBy_ask {r : Request} {next : r.Reply → Plan α} (hr : r.Immediate) (h : ∀ x, (next x).EndsBy limit) :
    (Plan.ask r next).EndsBy limit :=
  ⟨hr, h⟩

namespace EndsBy

theorem bind {p : Plan α} {f : α → Plan β} (hp : p.EndsBy limit) (hf : ∀ a, (f a).EndsBy limit) :
    (p.bind f).EndsBy limit := by
  induction p with
  | done a => exact hf a
  | ask r next ih => exact ⟨hp.1, fun x => ih x (hp.2 x)⟩
  | askBy l r next ih => exact ⟨hp.1, fun x => ih x (hp.2 x)⟩

theorem now_le (h : w.now ≤ limit) {l : Nat} (hl : l ≤ limit) (r : Request) :
    (inTime w.now (w.step b r).duration l = true → (w.step b r).after.now ≤ limit) ∧
      (inTime w.now (w.step b r).duration l = false → ((w.step b r).abandoned (l - w.now)).now ≤ limit) := by
  obtain ⟨hafter, habandoned⟩ := World.now_step b r w
  constructor
  · intro hdone
    rcases Bool.or_eq_true_iff.mp hdone with hdone | hdone
    · have := of_decide_eq_true hdone
      omega
    · have := of_decide_eq_true hdone
      omega
  · intro _
    rw [habandoned]
    omega

/-- A plan that starts in time starts no request too late, and is at its end in time. -/
theorem run {p : Plan α} (hp : p.EndsBy limit) (h : w.now ≤ limit) :
    (p.run b w).2.now ≤ limit ∧ ∀ e ∈ p.trace b w, e.world.now ≤ limit := by
  induction p generalizing w with
  | done a => exact ⟨h, fun _ he => nomatch he⟩
  | ask r next ih =>
      have hafter : (w.step b r).after.now ≤ limit := by
        rw [(World.now_step b r w).1, World.duration_step b hp.1]
        exact h
      obtain ⟨hend, hevents⟩ := ih _ (hp.2 _) hafter
      exact ⟨hend, List.forall_mem_cons.mpr ⟨h, hevents⟩⟩
  | askBy l r next ih =>
      obtain ⟨hafter, habandoned⟩ := now_le (b := b) h hp.1 r
      rcases Bool.eq_false_or_eq_true (inTime w.now (w.step b r).duration l) with hdone | hdone
      · rw [run_askBy_of_inTime next hdone, trace_askBy_of_inTime next hdone]
        obtain ⟨hend, hevents⟩ := ih _ (hp.2 _) (hafter hdone)
        exact ⟨hend, List.forall_mem_cons.mpr ⟨h, hevents⟩⟩
      · rw [run_askBy_of_late next hdone, trace_askBy_of_late next hdone]
        obtain ⟨hend, hevents⟩ := ih _ (hp.2 _) (habandoned hdone)
        exact ⟨hend, List.forall_mem_cons.mpr ⟨h, hevents⟩⟩

end EndsBy

/-- A plan that is done by the limit, be it at the very end, comes to what it comes to without the limit. -/
theorem run_within {p : Plan α} (h : (p.run b w).2.now ≤ limit) :
    (p.within limit).run b w = (some (p.run b w).1, (p.run b w).2) := by
  induction p generalizing w with
  | done a => rfl
  | ask r next ih =>
      have hnow := (World.now_step b r w).1
      have hle := now_le_run b (next (w.step b r).reply) (w.step b r).after
      rw [run_ask] at h
      have hdone : inTime w.now (w.step b r).duration limit = true :=
        Bool.or_eq_true_iff.mpr (.inl (decide_eq_true (by omega)))
      rw [within, run_askBy_of_inTime _ hdone]
      exact ih _ h
  | askBy l r next ih =>
      obtain ⟨hafter, habandoned⟩ := World.now_step b r w
      rw [within]
      rcases Bool.eq_false_or_eq_true (inTime w.now (w.step b r).duration l) with hdone | hdone
      · rw [run_askBy_of_inTime next hdone] at h ⊢
        have hle := now_le_run b (next (some (w.step b r).reply)) (w.step b r).after
        have hearlier : inTime w.now (w.step b r).duration (min l limit) = true := by
          simp only [inTime, Bool.or_eq_true, decide_eq_true_eq] at hdone ⊢
          omega
        rw [run_askBy_of_inTime _ hearlier]
        exact ih _ h
      · rw [run_askBy_of_late next hdone] at h ⊢
        have hle := now_le_run b (next none) ((w.step b r).abandoned (l - w.now))
        have hgiven := habandoned (l - w.now)
        have hearlier : min l limit - w.now = l - w.now := by omega
        have hstill : inTime w.now (w.step b r).duration (min l limit) = false := by
          simp only [inTime, Bool.or_eq_false_iff, decide_eq_false_iff_not] at hdone ⊢
          omega
        rw [run_askBy_of_late _ hstill, hearlier]
        exact ih _ h

/-- A plan that its limit cuts off ends at the limit. -/
theorem now_of_run_within {p : Plan α} (h : w.now ≤ limit) (hnone : ((p.within limit).run b w).1 = none) :
    ((p.within limit).run b w).2.now = limit := by
  induction p generalizing w with
  | done a => cases hnone
  | ask r next ih =>
      obtain ⟨hafter, habandoned⟩ := EndsBy.now_le (b := b) h (Nat.le_refl limit) r
      rw [within] at hnone ⊢
      rcases Bool.eq_false_or_eq_true (inTime w.now (w.step b r).duration limit) with hdone | hdone
      · rw [run_askBy_of_inTime _ hdone] at hnone ⊢
        exact ih _ (hafter hdone) hnone
      · rw [run_askBy_of_late _ hdone]
        change ((w.step b r).abandoned (limit - w.now)).now = limit
        rw [(World.now_step b r w).2]
        omega
  | askBy l r next ih =>
      obtain ⟨hafter, habandoned⟩ := EndsBy.now_le (b := b) h (Nat.min_le_right l limit) r
      rw [within] at hnone ⊢
      rcases Bool.eq_false_or_eq_true (inTime w.now (w.step b r).duration (min l limit)) with hdone | hdone
      · rw [run_askBy_of_inTime _ hdone] at hnone ⊢
        exact ih _ (hafter hdone) hnone
      · rw [run_askBy_of_late _ hdone] at hnone ⊢
        exact ih _ (habandoned hdone) hnone

end Plan

namespace Flow

variable {σ : Type} {b : PageBehaviour σ} {d : Deadline} {f : Flow} {role : String} {c : Credentials}

/-! ### Steps -/

theorem endsBy_runSteps (last : Step) (steps : List (Step × Attempt Unit)) :
    (runSteps d role last steps).EndsBy d.at_ := by
  induction steps generalizing last with
  | nil => trivial
  | cons s rest ih =>
      have hbounded : (bounded d role s.1 s.2).run.EndsBy d.at_ := by
        refine (Plan.endsBy_within s.2.run).bind fun r => ?_
        cases r <;> trivial
      refine hbounded.bind fun r => ?_
      cases r with
      | error e => trivial
      | ok u => exact ih s.1

theorem endsBy_run : (f.run role c d).EndsBy d.at_ := by
  refine (endsBy_runSteps .navigate (f.opening role)).bind fun r => ?_
  obtain ⟨step, r⟩ := r
  cases r with
  | error e => trivial
  | ok u =>
      refine Plan.endsBy_ask trivial fun address => Plan.endsBy_ask trivial fun _ => ?_
      exact endsBy_runSteps step (f.steps (f.handlerFor address) role c)

theorem now_le_of_mem_entries {steps : List (Step × Attempt Unit)} {w : World σ} (h : w.now ≤ d.at_) {e : Entry σ}
    (he : e ∈ entries b d steps w) : e.world.now ≤ d.at_ := by
  induction steps generalizing w with
  | nil => cases he
  | cons s rest ih =>
      rw [entries] at he
      split at he
      · rcases List.mem_cons.mp he with rfl | he
        · exact h
        · exact ih ((Plan.endsBy_within s.2.run).run h).1 he
      · rw [List.mem_singleton.mp he]
        exact h

theorem now_le_of_mem_entered {w : World σ} {e : Entry σ} (he : e ∈ f.entered b role c w) :
    e.world.now ≤ (f.deadline w).at_ := by
  have hstarted : (f.started b role c w).now ≤ (f.deadline w).at_ := Nat.le_add_right w.now _
  have harrival : (f.arrival b role c w).2.now ≤ (f.deadline w).at_ :=
    ((endsBy_runSteps .navigate (f.opening role)).run hstarted).1
  rcases List.mem_append.mp he with he | he
  · exact now_le_of_mem_entries hstarted he
  · split at he
    · cases he
    · exact now_le_of_mem_entries (w := f.arrived b role c w) harrival he

/-! ### Whole logins -/

theorem duration_of_execute {w : World σ} {r : SignedOn} (h : ((f.execute role c).run.run b w).1 = .ok r) :
    r.duration = (f.taken b role c w).2.now - w.now := by
  rw [run_execute] at h
  generalize f.taken b role c w = after at h ⊢
  obtain ⟨⟨step, outcome⟩, v⟩ := after
  cases outcome with
  | ok u =>
      obtain rfl := Except.ok.inj h
      rfl
  | error e =>
      obtain ⟨failure, hfailure⟩ := (f.obeys_conclude_error role w.now step e).run b v
      cases hfailure.symm.trans h

/-- **A login keeps its time limit.**  Whatever the page, the handlers and the settings are, its steps are over by the
limit, counted from its start, and nothing is asked for behind it; so a login that succeeds has not taken longer.  A
step that is done by the limit, be it at the very end, comes to what it comes to without the limit, and one that is
cut off ends at the limit. -/
theorem execute_in_time (b : PageBehaviour σ) (f : Flow) (role : String) (c : Credentials) (w : World σ) :
    (f.taken b role c w).2.now ≤ w.now + f.settings.timeouts.loginFlow ∧
      (∀ r, ((f.execute role c).run.run b w).1 = .ok r →
        r.duration = (f.taken b role c w).2.now - w.now ∧ r.duration ≤ f.settings.timeouts.loginFlow) ∧
      (∀ e ∈ (f.run role c (f.deadline w)).trace b (f.started b role c w),
        e.world.now ≤ w.now + f.settings.timeouts.loginFlow) ∧
      ∀ e ∈ f.entered b role c w,
        (∃ s, (s ∈ f.opening role ∨ s ∈ f.steps (f.handlerAt b role c w) role c) ∧
          e = enter b (f.deadline w) s e.world) ∧
        ∀ s, e = enter b (f.deadline w) s e.world →
          ((s.2.run.run b e.world).2.now ≤ w.now + f.settings.timeouts.loginFlow →
            e.result = some (s.2.run.run b e.world).1 ∧
              leave b (f.deadline w) s e.world = (s.2.run.run b e.world).2) ∧
          (e.result = none → (leave b (f.deadline w) s e.world).now = w.now + f.settings.timeouts.loginFlow) := by
  have hstarted : (f.started b role c w).now ≤ (f.deadline w).at_ := Nat.le_add_right w.now _
  have hrun : (f.run role c (f.deadline w)).EndsBy (f.deadline w).at_ := endsBy_run
  obtain ⟨hend, hevents⟩ := hrun.run (b := b) hstarted
  have htaken : (f.taken b role c w).2.now ≤ w.now + f.settings.timeouts.loginFlow := hend
  refine ⟨htaken, fun r hr => ?_, hevents, fun e he => ⟨?_, fun s hs => ⟨fun hdone => ?_, fun hcut => ?_⟩⟩⟩
  · have hduration := duration_of_execute hr
    exact ⟨hduration, by omega⟩
  · obtain ⟨s, v, rfl, hs⟩ := exists_enter_of_mem_entered he
    exact ⟨s, hs, rfl⟩
  · have hsame := Plan.run_within hdone
    exact ⟨(congrArg Entry.result hs).trans (congrArg Prod.fst hsame), congrArg Prod.snd hsame⟩
  · have hentered := now_le_of_mem_entered he
    exact Plan.now_of_run_within hentered ((congrArg Entry.result hs).symm.trans hcut)

/-- A page that is slow: every call takes a while, and succeeds. -/
def slowPage : PageBehaviour Unit where
  url := smoothPage.url
  respond call page now := { smoothPage.respond call page now with duration := 10 }

/-- A login that has just the time for the calls that it makes there. -/
def tightFlow : Flow :=
  { plainFlow with settings := { plainFlow.settings with timeouts := { loginFlow := 140 } } }

/-- The login succeeds at the very end of its time. -/
theorem execute_in_time_slowPage :
    ∃ r, ((tightFlow.execute "admin" ⟨"ada", "secret"⟩).run.run slowPage { page := () }).1 = .ok r ∧
      r.duration = 140 ∧ (tightFlow.taken slowPage "admin" ⟨"ada", "secret"⟩ { page := () }).2.now = 140 := by
  have hvalue : ((tightFlow.execute "admin" ⟨"ada", "secret"⟩).run.run slowPage { page := () }).1.toOption =
      some ⟨"https://app.example/home", 140⟩ := by decide +kernel
  obtain ⟨-, hok, -⟩ := execute_in_time slowPage tightFlow "admin" ⟨"ada", "secret"⟩ { page := () }
  cases hrun : ((tightFlow.execute "admin" ⟨"ada", "secret"⟩).run.run slowPage { page := () }).1 with
  | error e =>
      rw [hrun] at hvalue
      cases hvalue
  | ok r =>
      rw [hrun] at hvalue
      obtain ⟨htook, -⟩ := hok r hrun
      obtain rfl := Option.some.inj hvalue
      exact ⟨_, rfl, rfl, htook.symm⟩

end Flow

end SignOn
