import SignOn.Proofs.Plans

/-! # What the requests of a run have to do with each other

* `Plan.Watches A` bounds the requests of a plan by the worlds in which they are made.
* `Plan.AtMost n P` bounds how many of the requests are in `P`.
* `Precedes G P` says of a trace that behind its first event in `G` only there are events in `P`. -/

namespace SignOn

namespace Plan

variable {σ α β : Type} (b : PageBehaviour σ)

/-! ### Requests and their worlds -/

/-- Each request of the plan is in `A` for the world that it is made in, whether the requests before
were waited for or given up. -/
def Watches (A : World σ → Request → Prop) : Plan α → World σ → Prop
  | .done _, _ => True
  | .ask r next, w => A w r ∧ (next (w.step b r).reply).Watches A (w.step b r).after
  | .askBy _ r next, w =>
    A w r ∧ (next (some (w.step b r).reply)).Watches A (w.step b r).after ∧
      ∀ ms, (next none).Watches A ((w.step b r).abandoned ms)

variable {b} {A : World σ → Request → Prop} {Q : α → Prop}

theorem Obeys.watches {p : Plan α} (h : p.Obeys (fun r => ∀ w, A w r) Q) (w : World σ) :
    p.Watches b A w := by
  induction p generalizing w with
  | done a => exact trivial
  | ask r next ih => exact ⟨h.1 w, ih _ (h.2 _) _⟩
  | askBy limit r next ih => exact ⟨h.1 w, ih _ (h.2 _) _, fun ms => ih _ (h.2 _) _⟩

theorem watches_wallClock {f : Int → Plan α} {w : World σ} (hA : A w .wallClock)
    (hf : (f w.wall).Watches b A w) : (wallClock.bind f).Watches b A w := ⟨hA, hf⟩

theorem watches_env {name : String} {f : Option String → Plan α} {w : World σ} (hA : A w (.env name))
    (hf : (f (w.environment name)).Watches b A w) : ((env name).bind f).Watches b A w := ⟨hA, hf⟩

namespace Watches

theorem mono {A' : World σ → Request → Prop} {p : Plan α} {w : World σ} (h : p.Watches b A w)
    (hA : ∀ w r, A w r → A' w r) : p.Watches b A' w := by
  induction p generalizing w with
  | done a => exact trivial
  | ask r next ih => exact ⟨hA w r h.1, ih _ h.2⟩
  | askBy limit r next ih => exact ⟨hA w r h.1, ih _ h.2.1, fun ms => ih _ (h.2.2 ms)⟩

theorem of_mem_trace {p : Plan α} {w : World σ} (h : p.Watches b A w) {e : Event σ}
    (he : e ∈ p.trace b w) : A e.world e.request := by
  induction p generalizing w with
  | done a => cases he
  | ask r next ih =>
      rcases List.mem_cons.mp he with rfl | he
      · exact h.1
      · exact ih _ h.2 he
  | askBy limit r next ih =>
      rw [trace] at he
      split at he <;> rcases List.mem_cons.mp he with rfl | he
      · exact h.1
      · exact ih _ h.2.1 he
      · exact h.1
      · exact ih _ (h.2.2 _) he

theorem within {p : Plan α} {w : World σ} (h : p.Watches b A w) (limit : Nat) :
    (p.within limit).Watches b A w := by
  induction p generalizing w with
  | done a => exact trivial
  | ask r next ih =>
      rw [Plan.within]
      exact ⟨h.1, ih _ h.2, fun _ => trivial⟩
  | askBy l r next ih =>
      rw [Plan.within]
      exact ⟨h.1, ih _ h.2.1, fun ms => ih _ (h.2.2 ms)⟩

theorem bind {p : Plan α} {f : α → Plan β} {w : World σ} (h : p.Watches b A w)
    (hf : ∀ a w', (f a).Watches b A w') : (p.bind f).Watches b A w := by
  induction p generalizing w with
  | done a => exact hf a w
  | ask r next ih => exact ⟨h.1, ih _ h.2⟩
  | askBy limit r next ih => exact ⟨h.1, ih _ h.2.1, fun ms => ih _ (h.2.2 ms)⟩

end Watches

/-! ### Numbers of requests -/

/-- At most `n` requests of the plan are in `P`, whatever the replies are. -/
def AtMost (P : Request → Bool) : Nat → Plan α → Prop
  | _, .done _ => True
  | n, .ask r next => ∃ k, (P r).toNat + k ≤ n ∧ ∀ x, AtMost P k (next x)
  | n, .askBy _ r next => ∃ k, (P r).toNat + k ≤ n ∧ ∀ x, AtMost P k (next x)

variable {P : Request → Bool}

theorem AtMost.mono {p : Plan α} {n m : Nat} (h : p.AtMost P n) (hnm : n ≤ m) : p.AtMost P m := by
  cases p with
  | done a => exact trivial
  | ask r next =>
      obtain ⟨k, hk, hnext⟩ := h
      exact ⟨k, by omega, hnext⟩
  | askBy limit r next =>
      obtain ⟨k, hk, hnext⟩ := h
      exact ⟨k, by omega, hnext⟩

theorem Obeys.atMost {p : Plan α} (h : p.Obeys (fun r => P r = false) Q) : p.AtMost P 0 := by
  induction p with
  | done a => exact trivial
  | ask r next ih => exact ⟨0, by rw [h.1]; decide, fun x => ih x (h.2 x)⟩
  | askBy limit r next ih => exact ⟨0, by rw [h.1]; decide, fun x => ih x (h.2 x)⟩

namespace AtMost

theorem bind {p : Plan α} {f : α → Plan β} {n m : Nat} (h : p.AtMost P n) (hf : ∀ a, (f a).AtMost P m) :
    (p.bind f).AtMost P (n + m) := by
  induction p generalizing n with
  | done a => exact (hf a).mono (Nat.le_add_left m n)
  | ask r next ih =>
      obtain ⟨k, hk, hnext⟩ := h
      exact ⟨k + m, by omega, fun x => ih x (hnext x)⟩
  | askBy limit r next ih =>
      obtain ⟨k, hk, hnext⟩ := h
      exact ⟨k + m, by omega, fun x => ih x (hnext x)⟩

theorem within {p : Plan α} {n : Nat} (h : p.AtMost P n) (limit : Nat) : (p.within limit).AtMost P n := by
  induction p generalizing n with
  | done a => exact trivial
  | ask r next ih =>
      obtain ⟨k, hk, hnext⟩ := h
      rw [Plan.within]
      refine ⟨k, hk, fun x => ?_⟩
      cases x with
      | none => exact trivial
      | some x => exact ih x (hnext x)
  | askBy l r next ih =>
      obtain ⟨k, hk, hnext⟩ := h
      rw [Plan.within]
      exact ⟨k, hk, fun x => ih x (hnext x)⟩

theorem countP_trace {p : Plan α} {n : Nat} (h : p.AtMost P n) (w : World σ) :
    (p.trace b w).countP (fun e => P e.request) ≤ n := by
  induction p generalizing n w with
  | done a => exact Nat.zero_le n
  | ask r next ih =>
      obtain ⟨k, hk, hnext⟩ := h
      have ih := ih _ (hnext (w.step b r).reply) (w.step b r).after
      rw [trace, List.countP_cons]
      cases hr : P r <;> simp [hr] at hk ⊢ <;> omega
  | askBy limit r next ih =>
      obtain ⟨k, hk, hnext⟩ := h
      rw [trace]
      split
      · have ih := ih _ (hnext (some (w.step b r).reply)) (w.step b r).after
        rw [List.countP_cons]
        cases hr : P r <;> simp [hr] at hk ⊢ <;> omega
      · have ih := ih _ (hnext none) ((w.step b r).abandoned (limit - w.now))
        rw [List.countP_cons]
        cases hr : P r <;> simp [hr] at hk ⊢ <;> omega

end AtMost

end Plan

namespace Attempt

variable {σ α β : Type} {b : PageBehaviour σ} {A : World σ → Request → Prop}

/-- Each request of the attempt is in `A` for the world that it is made in. -/
def Watches (b : PageBehaviour σ) (A : World σ → Request → Prop) (p : Attempt α) (w : World σ) : Prop :=
  Plan.Watches b A p.run w

theorem Obeys.watches {E : AuthError → Prop} {p : Attempt α} (h : p.Obeys (fun r => ∀ w, A w r) E)
    (w : World σ) : p.Watches b A w :=
  Plan.Obeys.watches h w

theorem watches_page {role : String} {phase : AuthPhase} {c : PageCall} {w : World σ}
    (h : A w (.page c)) : (page role phase c).Watches b A w := by
  refine ⟨h, ?_⟩
  cases (w.step b (.page c)).reply with
  | ok v => exact trivial
  | error e => exact trivial

theorem Watches.mono {A' : World σ → Request → Prop} {p : Attempt α} {w : World σ} (h : p.Watches b A w)
    (hA : ∀ w r, A w r → A' w r) : p.Watches b A' w :=
  Plan.Watches.mono h hA

theorem Watches.bind {p : Attempt α} {f : α → Attempt β} {w : World σ} (h : p.Watches b A w)
    (hf : ∀ a w', (f a).Watches b A w') : (p >>= f).Watches b A w := by
  refine Plan.Watches.bind h fun r w' => ?_
  cases r with
  | ok a => exact hf a w'
  | error e => exact trivial

theorem run_of_bind (p : Plan α) (f : α → Attempt β) :
    (Attempt.of p >>= f).run = p.bind fun a => (f a).run :=
  Plan.bind_assoc p _ _

theorem run_bind_of_ok {p : Attempt α} {f : α → Attempt β} {w w' : World σ} {a : α}
    (h : p.run.run b w = (.ok a, w')) : (p >>= f).run.run b w = (f a).run.run b w' :=
  Plan.run_bind_of_eq b h

theorem run_bind_of_error {p : Attempt α} {f : α → Attempt β} {w w' : World σ} {e : AuthError}
    (h : p.run.run b w = (.error e, w')) : (p >>= f).run.run b w = (.error e, w') :=
  Plan.run_bind_of_eq b h

theorem trace_bind_of_ok {p : Attempt α} {f : α → Attempt β} {w w' : World σ} {a : α}
    (h : p.run.run b w = (.ok a, w')) : (p >>= f).run.trace b w = p.run.trace b w ++ (f a).run.trace b w' := by
  refine (Plan.trace_bind b p.run _ w).trans ?_
  rw [h]
  rfl

theorem trace_bind_of_error {p : Attempt α} {f : α → Attempt β} {w w' : World σ} {e : AuthError}
    (h : p.run.run b w = (.error e, w')) : (p >>= f).run.trace b w = p.run.trace b w := by
  refine (Plan.trace_bind b p.run _ w).trans ?_
  rw [h]
  exact List.append_nil _

theorem run_bind_eq_ok {p : Attempt α} {f : α → Attempt β} {w w' : World σ} {x : β}
    (h : (p >>= f).run.run b w = (.ok x, w')) :
    ∃ a v, p.run.run b w = (.ok a, v) ∧ (f a).run.run b v = (.ok x, w') := by
  obtain ⟨v, hp⟩ : ∃ v, p.run.run b w = ((p.run.run b w).1, v) := ⟨_, rfl⟩
  cases hr : (p.run.run b w).1 with
  | ok a =>
      rw [hr] at hp
      exact ⟨a, v, hp, (run_bind_of_ok hp).symm.trans h⟩
  | error e =>
      rw [hr] at hp
      cases (run_bind_of_error hp).symm.trans h

section

variable (b : PageBehaviour σ) (role : String) (phase : AuthPhase) (c : PageCall) (w : World σ)

theorem run_page : (page role phase c).run.run b w =
    ((b.respond c w.page w.now).outcome.mapError (.ofPage role phase), (w.step b (.page c)).after) := by
  change ((Plan.page c).bind _).run b w = _
  rw [Plan.run_page]
  cases (b.respond c w.page w.now).outcome with
  | ok x => rfl
  | error e => rfl

theorem trace_page : (page role phase c).run.trace b w =
    [⟨w, .page c, some (b.respond c w.page w.now).outcome⟩] := by
  refine (Plan.trace_bind b (Plan.page c) _ w).trans (congrArg (_ :: ·) ?_)
  change Plan.trace b _ (w.step b (.page c)).after = []
  cases ((Plan.page c).run b w).1 with
  | ok x => rfl
  | error e => rfl

end

theorem run_page_eq_ok {role : String} {phase : AuthPhase} {c : PageCall} {w w' : World σ} {x : c.Value}
    (h : (page role phase c).run.run b w = (.ok x, w')) :
    (b.respond c w.page w.now).outcome = .ok x ∧ w' = (w.step b (.page c)).after := by
  obtain ⟨hcall, rfl⟩ := Prod.mk.inj ((run_page b role phase c w).symm.trans h)
  cases hr : (b.respond c w.page w.now).outcome with
  | ok y =>
      rw [hr] at hcall
      cases hcall
      exact ⟨rfl, rfl⟩
  | error e =>
      rw [hr] at hcall
      cases hcall

theorem Obeys.atMost {P : Request → Bool} {E : AuthError → Prop} {p : Attempt α}
    (h : p.Obeys (fun r => P r = false) E) : p.run.AtMost P 0 :=
  Plan.Obeys.atMost h

theorem atMost_page (P : Request → Bool) (role : String) (phase : AuthPhase) (c : PageCall) :
    (page role phase c).run.AtMost P 1 := by
  refine ⟨0, ?_, fun r => ?_⟩
  · cases P (.page c) <;> decide
  · cases r with
    | ok v => exact trivial
    | error e => exact trivial

theorem atMost_bind {P : Request → Bool} {p : Attempt α} {f : α → Attempt β} {n m : Nat}
    (h : p.run.AtMost P n) (hf : ∀ a, (f a).run.AtMost P m) : (p >>= f).run.AtMost P (n + m) := by
  refine Plan.AtMost.bind h fun r => ?_
  cases r with
  | ok a => exact hf a
  | error e => exact trivial

end Attempt

/-! ### Order of events -/

/-- Before each event in `P` there is one in `G`. -/
def Precedes {σ : Type} (G P : Event σ → Prop) (trace : List (Event σ)) : Prop :=
  ∀ before e after, trace = before ++ e :: after → P e → ∃ g ∈ before, G g

namespace Precedes

variable {σ : Type} {G P : Event σ → Prop} {l l' : List (Event σ)}

theorem of_forall_not (h : ∀ e ∈ l, ¬ P e) : Precedes G P l := by
  intro before e after hl he
  exact absurd he (h e (hl ▸ List.mem_append_right before List.mem_cons_self))

theorem append_of_mem (h : ∀ e ∈ l, ¬ P e) {g : Event σ} (hg : g ∈ l) (hG : G g) : Precedes G P (l ++ l') := by
  intro before e after hl he
  rcases List.append_eq_append_iff.mp hl with ⟨mid, rfl, -⟩ | ⟨mid, rfl, hmid⟩
  · exact ⟨g, List.mem_append_left mid hg, hG⟩
  · cases mid with
    | nil => exact ⟨g, by simpa using hg, hG⟩
    | cons m mid =>
        obtain ⟨rfl, -⟩ := List.cons.inj hmid
        exact absurd he (h e (List.mem_append_right before List.mem_cons_self))

end Precedes

end SignOn
