import SignOn.Attempt
import SignOn.World

/-! # What plans ask for

* `Plan.trace` lists the requests of a run, each with the world in which it was made and with what
  came back.
* `Plan.Obeys A Q` bounds a plan from its text alone: whatever the replies are, it makes only requests
  in `A` and ends only with values in `Q`.  The bound holds of the trace and of the value of every run
  (`Obeys.of_mem_trace`, `Obeys.run`), and an invariant of the requests in `A` holds in every world of
  the run (`Obeys.invariant`, `Obeys.invariant_of_mem_trace`).
* `World.Frozen` is what no request ever changes: the environment and the settings of the clock. -/

namespace SignOn

/-- A request that has been made: in which world, and what came back; nothing if it was given up. -/
structure Event (σ : Type) where
  world : World σ
  request : Request
  reply : Option request.Reply

def Request.isCall : Request → Bool
  | .page _ | .race .. => true
  | _ => false

def Event.isCall {σ : Type} (e : Event σ) : Bool :=
  e.request.isCall

namespace Plan

variable {σ α β : Type} (b : PageBehaviour σ)

/-! ### Traces -/

/-- The requests of a run, in their order. -/
def trace : Plan α → World σ → List (Event σ)
  | .done _, _ => []
  | .ask r next, w =>
    ⟨w, r, some (w.step b r).reply⟩ :: (next (w.step b r).reply).trace (w.step b r).after
  | .askBy limit r next, w =>
    if inTime w.now (w.step b r).duration limit then
      ⟨w, r, some (w.step b r).reply⟩ :: (next (some (w.step b r).reply)).trace (w.step b r).after
    else ⟨w, r, none⟩ :: (next none).trace ((w.step b r).abandoned (limit - w.now))

@[simp] theorem trace_done (a : α) (w : World σ) : (Plan.done a).trace b w = [] := rfl

theorem run_wallClock (f : Int → Plan α) (w : World σ) :
    (wallClock.bind f).run b w = (f w.wall).run b w := rfl

theorem run_url (f : String → Plan α) (w : World σ) :
    (url.bind f).run b w = (f (b.url w.page w.now)).run b w := rfl

theorem run_page (c : PageCall) (f : Except PageError c.Value → Plan α) (w : World σ) :
    ((page c).bind f).run b w =
      (f (b.respond c w.page w.now).outcome).run b (w.step b (.page c)).after := rfl

theorem run_file (op : FileOp) (f : Except FileError op.Value → Plan α) (w : World σ) :
    ((file op).bind f).run b w = (f (World.fileStep op w).1).run b (World.fileStep op w).2 := rfl

theorem run_bind_of_eq {p : Plan α} {f : α → Plan β} {w w' : World σ} {a : α} (h : p.run b w = (a, w')) :
    (p.bind f).run b w = (f a).run b w' := by
  rw [run_bind, h]

theorem exists_run_eq {p : Plan α} {w : World σ} {a : α} (h : (p.run b w).1 = a) : ∃ w', p.run b w = (a, w') :=
  ⟨(p.run b w).2, Prod.ext h rfl⟩

/-- A plan that follows another one makes its requests behind those of the first one. -/
theorem trace_bind (p : Plan α) (f : α → Plan β) (w : World σ) :
    (p.bind f).trace b w = p.trace b w ++ (f (p.run b w).1).trace b (p.run b w).2 := by
  induction p generalizing w with
  | done a => rfl
  | ask r next ih =>
      simp only [bind, trace, run, List.cons_append]
      rw [ih]
  | askBy limit r next ih =>
      simp only [bind, trace, run]
      split
      · rw [ih, List.cons_append]
      · rw [ih, List.cons_append]

/-! ### Bounds on plans -/

/-- Whatever the replies are, the plan makes only requests in `A` and ends only with values in `Q`. -/
def Obeys (A : Request → Prop) (Q : α → Prop) : Plan α → Prop
  | .done a => Q a
  | .ask r next => A r ∧ ∀ x, (next x).Obeys A Q
  | .askBy _ r next => A r ∧ ∀ x, (next x).Obeys A Q

variable {A A' : Request → Prop} {Q Q' : α → Prop} {R : β → Prop}

theorem obeys_request {r : Request} {Q : r.Reply → Prop} (hr : A r) (hQ : ∀ x, Q x) :
    (request r).Obeys A Q := ⟨hr, hQ⟩

theorem obeys_ask {r : Request} {f : r.Reply → Plan α} (hr : A r) (hf : ∀ x, (f x).Obeys A Q) :
    ((request r).bind f).Obeys A Q := ⟨hr, hf⟩

namespace Obeys

theorem mono {p : Plan α} (h : p.Obeys A Q) (hA : ∀ r, A r → A' r) (hQ : ∀ a, Q a → Q' a) :
    p.Obeys A' Q' := by
  induction p with
  | done a => exact hQ a h
  | ask r next ih => exact ⟨hA r h.1, fun x => ih x (h.2 x)⟩
  | askBy limit r next ih => exact ⟨hA r h.1, fun x => ih x (h.2 x)⟩

theorem bind {p : Plan α} {f : α → Plan β} (h : p.Obeys A Q) (hf : ∀ a, Q a → (f a).Obeys A R) :
    (p.bind f).Obeys A R := by
  induction p with
  | done a => exact hf a h
  | ask r next ih => exact ⟨h.1, fun x => ih x (h.2 x)⟩
  | askBy limit r next ih => exact ⟨h.1, fun x => ih x (h.2 x)⟩

theorem within {p : Plan α} (limit : Nat) (h : p.Obeys A Q) :
    (p.within limit).Obeys A fun o => ∀ a, o = some a → Q a := by
  induction p with
  | done a => exact fun _ e => Option.some.inj e ▸ h
  | ask r next ih =>
      rw [Plan.within]
      refine ⟨h.1, fun x => ?_⟩
      cases x with
      | none => exact fun _ e => nomatch e
      | some x => exact ih x (h.2 x)
  | askBy l r next ih =>
      rw [Plan.within]
      exact ⟨h.1, fun x => ih x (h.2 x)⟩

theorem of_mem_trace {p : Plan α} (h : p.Obeys A Q) {w : World σ} {e : Event σ}
    (he : e ∈ p.trace b w) : A e.request := by
  induction p generalizing w with
  | done a => cases he
  | ask r next ih =>
      rcases List.mem_cons.mp he with rfl | he
      · exact h.1
      · exact ih _ (h.2 _) he
  | askBy limit r next ih =>
      rw [trace] at he
      split at he <;> rcases List.mem_cons.mp he with rfl | he
      · exact h.1
      · exact ih _ (h.2 _) he
      · exact h.1
      · exact ih _ (h.2 _) he

theorem run {p : Plan α} (h : p.Obeys A Q) (w : World σ) : Q (p.run b w).1 := by
  induction p generalizing w with
  | done a => exact h
  | ask r next ih => exact ih _ (h.2 _) _
  | askBy limit r next ih =>
      simp only [Plan.run]
      split <;> exact ih _ (h.2 _) _

/-- What every request in `A` keeps, whether it is waited for or given up, the whole plan keeps. -/
theorem invariant {p : Plan α} (h : p.Obeys A Q) {I : World σ → Prop}
    (hI : ∀ r w, A r → I w → I (w.step b r).after ∧ ∀ ms, I ((w.step b r).abandoned ms))
    {w : World σ} (hw : I w) : I (p.run b w).2 := by
  induction p generalizing w with
  | done a => exact hw
  | ask r next ih => exact ih _ (h.2 _) (hI r w h.1 hw).1
  | askBy limit r next ih =>
      simp only [Plan.run]
      split
      · exact ih _ (h.2 _) (hI r w h.1 hw).1
      · exact ih _ (h.2 _) ((hI r w h.1 hw).2 _)

/-- Such an invariant holds wherever the plan makes a request. -/
theorem invariant_of_mem_trace {p : Plan α} (h : p.Obeys A Q) {I : World σ → Prop}
    (hI : ∀ r w, A r → I w → I (w.step b r).after ∧ ∀ ms, I ((w.step b r).abandoned ms))
    {w : World σ} (hw : I w) {e : Event σ} (he : e ∈ p.trace b w) : I e.world := by
  induction p generalizing w with
  | done a => cases he
  | ask r next ih =>
      rcases List.mem_cons.mp he with rfl | he
      · exact hw
      · exact ih _ (h.2 _) (hI r w h.1 hw).1 he
  | askBy limit r next ih =>
      rw [trace] at he
      split at he <;> rcases List.mem_cons.mp he with rfl | he
      · exact hw
      · exact ih _ (h.2 _) (hI r w h.1 hw).1 he
      · exact hw
      · exact ih _ (h.2 _) ((hI r w h.1 hw).2 _) he

end Obeys

theorem obeys_true (p : Plan α) : p.Obeys (fun _ => True) fun _ => True := by
  induction p with
  | done a => trivial
  | ask r next ih => exact ⟨trivial, ih⟩
  | askBy limit r next ih => exact ⟨trivial, ih⟩

end Plan

/-! ### Bounds on attempts -/

namespace Attempt

variable {α β : Type} {A A' : Request → Prop} {E E' : AuthError → Prop}

/-- Whatever the replies are, the attempt makes only requests in `A` and fails only with failures
in `E`. -/
def Obeys (A : Request → Prop) (E : AuthError → Prop) (p : Attempt α) : Prop :=
  Plan.Obeys A (fun r => ∀ e, r = .error e → E e) p.run

theorem obeys_pure (a : α) : (pure a : Attempt α).Obeys A E :=
  fun _ h => nomatch h

theorem obeys_throw {e : AuthError} (h : E e) : (throw e : Attempt α).Obeys A E :=
  fun _ he => Except.error.inj he ▸ h

theorem obeys_of {p : Plan α} {Q : α → Prop} (h : p.Obeys A Q) : (Attempt.of p).Obeys A E :=
  Plan.Obeys.bind h fun _ _ _ he => nomatch he

theorem obeys_page {role : String} {phase : AuthPhase} {c : PageCall} (hA : A (.page c))
    (hE : ∀ e, E (.ofPage role phase e)) : (Attempt.page role phase c).Obeys A E := by
  refine Plan.Obeys.bind (Plan.obeys_request (Q := fun _ => True) hA fun _ => trivial) fun r _ => ?_
  cases r with
  | ok v => exact fun _ h => nomatch h
  | error e => exact fun _ h => Except.error.inj h ▸ hE e

namespace Obeys

theorem mono {p : Attempt α} (h : p.Obeys A E) (hA : ∀ r, A r → A' r) (hE : ∀ e, E e → E' e) :
    p.Obeys A' E' :=
  Plan.Obeys.mono h hA fun _ hr e he => hE e (hr e he)

theorem bind {p : Attempt α} {f : α → Attempt β} (h : p.Obeys A E) (hf : ∀ a, (f a).Obeys A E) :
    (p >>= f).Obeys A E := by
  refine Plan.Obeys.bind h fun r hr => ?_
  cases r with
  | ok a => exact hf a
  | error e => exact fun _ he => Except.error.inj he ▸ hr e rfl

end Obeys

theorem obeys_of_bind {p : Plan α} {f : α → Attempt β} (h : p.Obeys A fun _ => True)
    (hf : ∀ a, (f a).Obeys A E) : (Attempt.of p >>= f).Obeys A E :=
  (obeys_of h).bind hf

theorem obeys_request_bind {r : Request} {f : r.Reply → Attempt β} (hr : A r)
    (hf : ∀ a, (f a).Obeys A E) : (Attempt.of (Plan.request r) >>= f).Obeys A E :=
  obeys_of_bind (Plan.obeys_request hr fun _ => trivial) hf

theorem obeys_ite {c : Bool} {p q : Attempt α} (hp : p.Obeys A E) (hq : q.Obeys A E) :
    (if c then p else q).Obeys A E := by
  cases c with
  | true => exact hp
  | false => exact hq

end Attempt

/-! ### What no request changes -/

namespace World

variable {σ : Type} (b : PageBehaviour σ)

/-- Two worlds with the same environment and the same settings of the clock. -/
def Frozen (v w : World σ) : Prop :=
  w.environment = v.environment ∧ w.epoch = v.epoch ∧ w.wallStopped = v.wallStopped

theorem Frozen.refl (w : World σ) : Frozen w w := ⟨rfl, rfl, rfl⟩

theorem Frozen.trans {u v w : World σ} (h : Frozen u v) (h' : Frozen v w) : Frozen u w :=
  ⟨h'.1.trans h.1, h'.2.1.trans h.2.1, h'.2.2.trans h.2.2⟩

theorem frozen_fileStep (op : FileOp) (w : World σ) : Frozen w (fileStep op w).2 := by
  cases op <;> simp only [fileStep] <;> (try split) <;> exact Frozen.refl w

theorem frozen_postStep (p : Post) (w : World σ) : Frozen w (postStep p w).2 := by
  unfold postStep
  cases w.server <;> exact Frozen.refl w

theorem frozen_step (r : Request) (w : World σ) :
    Frozen w (w.step b r).after ∧ ∀ ms, Frozen w ((w.step b r).abandoned ms) := by
  cases r with
  | file op => exact ⟨frozen_fileStep op w, fun _ => frozen_fileStep op w⟩
  | post p => exact ⟨frozen_postStep p w, fun _ => frozen_postStep p w⟩
  | _ => exact ⟨Frozen.refl w, fun _ => Frozen.refl w⟩

theorem Frozen.step {v w : World σ} (h : Frozen v w) (r : Request) :
    Frozen v (w.step b r).after ∧ ∀ ms, Frozen v ((w.step b r).abandoned ms) :=
  ⟨h.trans (frozen_step b r w).1, fun ms => h.trans ((frozen_step b r w).2 ms)⟩

end World

namespace Plan

variable {σ α : Type} (b : PageBehaviour σ)

theorem frozen_run (p : Plan α) (w : World σ) : World.Frozen w (p.run b w).2 :=
  p.obeys_true.invariant b (fun r _ _ h => h.step b r) (World.Frozen.refl w)

theorem frozen_of_mem_trace {p : Plan α} {w : World σ} {e : Event σ} (he : e ∈ p.trace b w) :
    World.Frozen w e.world :=
  p.obeys_true.invariant_of_mem_trace b (fun r _ _ h => h.step b r) (World.Frozen.refl w) he

end Plan

end SignOn
