import Mathlib.Data.Nat.Find
import Mathlib.Order.Bounds.Basic
import SignOn.Page.Look
import SignOn.Proofs.Plans

/-! # Looking for an element for a limited time

An element is looked for at once, then whenever an interval is over, and a last time when the time of the probe is
over; so the last nap may be shorter than the others.

* `Probe.instant` is the time of each look, `Page.pageAt` the page that it is made on.
* `Page.run_waitVisibleUntil_look` is one look, `Page.run_waitVisibleUntil` any number of looks that see nothing.
* `Probe.exists_last` is the look at the deadline: the first one that is not before it.
* `Page.waitVisible_looks` says how the whole wait goes.  It is made of its looks alone, and the element counts as
  visible at the first of them that sees it. -/

namespace SignOn

theorem exists_isLeast_or_forall_not (P : Nat → Prop) (last : Nat) :
    (∃ n ≤ last, IsLeast {k | P k} n) ∨ ∀ k ≤ last, ¬ P k := by
  by_cases h : ∃ k, k ≤ last ∧ P k
  · obtain ⟨k, hk, hholds⟩ := h
    classical
    have hsome : ∃ k, P k := ⟨k, hholds⟩
    have hfirst : IsLeast {k | P k} (Nat.find hsome) :=
      ⟨Nat.find_spec hsome, fun _ hj => Nat.find_min' hsome hj⟩
    exact .inl ⟨_, Nat.le_trans (hfirst.2 hholds) hk, hfirst⟩
  · exact .inr fun k hk hholds => h ⟨k, hk, hholds⟩

namespace Probe

variable (p : Probe)

/-- Milliseconds between two looks. -/
def gap : Nat :=
  max p.interval 1

/-- The time of a look, counted from the first one, which is made at the start. -/
def instant (start k : Nat) : Nat :=
  start + min (k * p.gap) p.timeout

theorem gap_pos : 0 < p.gap :=
  Nat.lt_of_lt_of_le Nat.zero_lt_one (Nat.le_max_right _ _)

theorem instant_zero (start : Nat) : p.instant start 0 = start := by
  rw [instant, Nat.zero_mul, Nat.zero_min, Nat.add_zero]

theorem instant_succ {k : Nat} (h : k * p.gap < p.timeout) (start : Nat) :
    p.instant start (k + 1) = p.instant start k + min p.gap (start + p.timeout - p.instant start k) := by
  have hnext : (k + 1) * p.gap = k * p.gap + p.gap := Nat.succ_mul k p.gap
  simp only [instant, hnext]
  omega

/-- There is a first look that is not before the deadline; it is made right at the deadline. -/
theorem exists_last (start : Nat) :
    ∃ last, IsLeast {k | p.timeout ≤ k * p.gap} last ∧ last ≤ p.timeout ∧
      p.instant start last = start + p.timeout := by
  have hsome : p.timeout ≤ p.timeout * p.gap := Nat.le_mul_of_pos_right p.timeout p.gap_pos
  have hlast : IsLeast {k | p.timeout ≤ k * p.gap} (Nat.find ⟨p.timeout, hsome⟩) :=
    ⟨Nat.find_spec (p := fun k => p.timeout ≤ k * p.gap) _, fun _ hk => Nat.find_min' _ hk⟩
  refine ⟨_, hlast, hlast.2 hsome, ?_⟩
  exact congrArg (start + ·) (Nat.min_eq_right hlast.1)

end Probe

namespace Page

variable {σ : Type} {b : PageBehaviour σ} {selector : String} {p : Probe}

/-! ### One look -/

/-- A look at a page that shows the element.  A failure of the page counts as no. -/
def Shows (b : PageBehaviour σ) (selector : String) (page : σ) (now : Nat) : Prop :=
  (b.respond (.isVisible selector) page now).outcome = .ok true

theorem run_sees (b : PageBehaviour σ) (selector : String) (w : World σ) :
    ∃ seen, (seen = true ↔ Shows b selector w.page w.now) ∧
      (sees selector).run b w = (seen, (w.step b (.page (.isVisible selector))).after) := by
  rw [sees, Plan.bind_eq, Plan.run_page, Shows]
  match (b.respond (.isVisible selector) w.page w.now).outcome with
  | .ok true => exact ⟨true, iff_of_true rfl rfl, rfl⟩
  | .ok false => exact ⟨false, iff_of_false Bool.false_ne_true (fun h => nomatch Except.ok.inj h), rfl⟩
  | .error e => exact ⟨false, iff_of_false Bool.false_ne_true (fun h => nomatch h), rfl⟩

/-- One look: if it does not see the element, the clock is looked at, and the next looks follow behind a nap. -/
theorem run_waitVisibleUntil_look (interval deadline fuel : Nat) (w : World σ) :
    let v := (w.step b (.page (.isVisible selector))).after
    (Shows b selector w.page w.now →
        (waitVisibleUntil selector interval deadline (fuel + 1)).run b w = (true, v)) ∧
      (¬ Shows b selector w.page w.now → (waitVisibleUntil selector interval deadline (fuel + 1)).run b w =
        if deadline ≤ v.now then (false, v)
        else (waitVisibleUntil selector interval deadline fuel).run b
          (v.advance (min interval (deadline - v.now)))) := by
  intro v
  obtain ⟨seen, hseen, hrun⟩ := run_sees b selector w
  rw [waitVisibleUntil, Plan.bind_eq, Plan.run_bind_of_eq b hrun]
  constructor
  · intro hshows
    rw [hseen.mpr hshows]
    rfl
  · intro hhides
    obtain rfl : seen = false := Bool.eq_false_iff.mpr (mt hseen.mp hhides)
    change Plan.run b (if deadline ≤ v.now then _ else _) v = _
    split
    · rfl
    · rfl

/-! ### Looks one after the other -/

/-- The page at a look, if none before has seen the element. -/
def pageAt (b : PageBehaviour σ) (selector : String) (p : Probe) (start : Nat) (page : σ) : Nat → σ
  | 0 => page
  | k + 1 =>
    (b.respond (.isVisible selector) (pageAt b selector p start page k) (p.instant start k)).page

/-- The first looks, the last one first. -/
def looks (selector : String) (p : Probe) (start n : Nat) : List (Nat × PageCall) :=
  ((List.range n).map fun k => (p.instant start k, .isVisible selector)).reverse

theorem looks_succ (selector : String) (p : Probe) (start n : Nat) :
    looks selector p start (n + 1) = (p.instant start n, .isVisible selector) :: looks selector p start n := by
  rw [looks, List.range_succ, List.map_append, List.reverse_append]
  rfl

/-- The world after so many looks, at some time. -/
def lookedAt (b : PageBehaviour σ) (selector : String) (p : Probe) (w : World σ) (n now : Nat) : World σ :=
  { w with
    page := pageAt b selector p w.now w.page n
    now
    calls := looks selector p w.now n ++ w.calls }

section

variable (hquick : ∀ page t, (b.respond (.isVisible selector) page t).duration = 0)

include hquick

theorem after_look (p : Probe) (w : World σ) (k : Nat) :
    ((lookedAt b selector p w k (p.instant w.now k)).step b (.page (.isVisible selector))).after =
      lookedAt b selector p w (k + 1) (p.instant w.now k) := by
  simp only [World.step, World.callStep, World.advance, World.noteCall, lookedAt, hquick, looks_succ, pageAt,
    Nat.add_zero, List.cons_append]

/-- A look that does not see the element is followed by a nap up to the next one, or ends the wait at the deadline. -/
theorem run_look_of_hides (p : Probe) (w : World σ) {k : Nat} (fuel : Nat)
    (h : ¬ Shows b selector (pageAt b selector p w.now w.page k) (p.instant w.now k)) :
    (waitVisibleUntil selector p.gap (w.now + p.timeout) (fuel + 1)).run b
        (lookedAt b selector p w k (p.instant w.now k)) =
      if p.timeout ≤ k * p.gap then (false, lookedAt b selector p w (k + 1) (p.instant w.now k))
      else (waitVisibleUntil selector p.gap (w.now + p.timeout) fuel).run b
        (lookedAt b selector p w (k + 1) (p.instant w.now (k + 1))) := by
  have hlook := (run_waitVisibleUntil_look p.gap (w.now + p.timeout) fuel
    (lookedAt b selector p w k (p.instant w.now k))).2 h
  rw [after_look hquick] at hlook
  rw [hlook]
  by_cases hover : p.timeout ≤ k * p.gap
  · have hnow : p.instant w.now k = w.now + p.timeout := congrArg (w.now + ·) (Nat.min_eq_right hover)
    rw [if_pos hover]
    exact if_pos (Nat.le_of_eq hnow.symm)
  · have hearly : k * p.gap < p.timeout := Nat.lt_of_not_le hover
    have hnow : ¬ w.now + p.timeout ≤ p.instant w.now k := by
      rw [Probe.instant, Nat.min_eq_left (Nat.le_of_lt hearly)]
      omega
    rw [if_neg hover, p.instant_succ hearly]
    exact if_neg hnow

/-- Looks that do not see the element lead to the next one, up to the one at the deadline. -/
theorem run_waitVisibleUntil (w : World σ) (k : Nat) {fuel : Nat}
    (hhides : ∀ j < k, ¬ Shows b selector (pageAt b selector p w.now w.page j) (p.instant w.now j))
    (htime : ∀ j < k, j * p.gap < p.timeout) :
    (waitVisibleUntil selector p.gap (w.now + p.timeout) (fuel + k)).run b w =
      (waitVisibleUntil selector p.gap (w.now + p.timeout) fuel).run b
        (lookedAt b selector p w k (p.instant w.now k)) := by
  induction k generalizing fuel with
  | zero =>
      rw [p.instant_zero]
      rfl
  | succ k ih =>
      have hlast := Nat.lt_succ_self k
      have hfuel : fuel + (k + 1) = fuel + 1 + k := by omega
      rw [hfuel, ih (fun j hj => hhides j (Nat.lt_succ_of_lt hj)) fun j hj => htime j (Nat.lt_succ_of_lt hj),
        run_look_of_hides hquick p w fuel (hhides k hlast), if_neg (Nat.not_le.mpr (htime k hlast))]

/-! ### The whole wait -/

variable {last fuel : Nat} (hlast : IsLeast {k | p.timeout ≤ k * p.gap} last) (hfuel : last < fuel)

include hlast hfuel

/-- The first look that sees the element ends the wait, if it is not behind the one at the deadline. -/
theorem run_waitVisibleUntil_of_shows (w : World σ) {n : Nat} (hn : n ≤ last)
    (hshows : IsLeast {k | Shows b selector (pageAt b selector p w.now w.page k) (p.instant w.now k)} n) :
    (waitVisibleUntil selector p.gap (w.now + p.timeout) fuel).run b w =
      (true, lookedAt b selector p w (n + 1) (p.instant w.now n)) := by
  obtain ⟨rest, rfl⟩ : ∃ rest, fuel = rest + 1 + n := ⟨fuel - 1 - n, by omega⟩
  rw [run_waitVisibleUntil hquick w n (fun j hj h => Nat.not_le.mpr hj (hshows.2 h)) fun j hj =>
    Nat.lt_of_not_le fun hover => Nat.not_le.mpr (Nat.lt_of_lt_of_le hj hn) (hlast.2 hover)]
  have hlook := (run_waitVisibleUntil_look p.gap (w.now + p.timeout) rest
    (lookedAt b selector p w n (p.instant w.now n))).1 hshows.1
  rw [after_look hquick] at hlook
  exact hlook

/-- If no look up to the one at the deadline sees the element, that look ends the wait. -/
theorem run_waitVisibleUntil_of_hides (w : World σ)
    (hhides : ∀ k ≤ last, ¬ Shows b selector (pageAt b selector p w.now w.page k) (p.instant w.now k)) :
    (waitVisibleUntil selector p.gap (w.now + p.timeout) fuel).run b w =
      (false, lookedAt b selector p w (last + 1) (p.instant w.now last)) := by
  obtain ⟨rest, rfl⟩ : ∃ rest, fuel = rest + 1 + last := ⟨fuel - 1 - last, by omega⟩
  rw [run_waitVisibleUntil hquick w last (fun j hj => hhides j (Nat.le_of_lt hj)) fun j hj =>
    Nat.lt_of_not_le fun hover => Nat.not_le.mpr hj (hlast.2 hover)]
  rw [run_look_of_hides hquick p w rest (hhides last (Nat.le_refl last))]
  exact if_pos hlast.1

end

/-- **An element is looked for at fixed times.**  Looks take no time of their own.  They are made at the start and then
every interval, but the last one right when the time of the probe is over.  The wait succeeds at the first look that
sees the element, and otherwise fails at the last one, when the time is over; it makes no other looks.  It ends with
these looks even if more rounds of its loop were allowed. -/
theorem waitVisible_looks (b : PageBehaviour σ) (selector : String) (p : Probe) (w : World σ)
    (hquick : ∀ page t, (b.respond (.isVisible selector) page t).duration = 0) :
    let interval := max p.interval 1
    let instant (k : Nat) := w.now + min (k * interval) p.timeout
    let shows (k : Nat) : Prop :=
      (b.respond (.isVisible selector) (pageAt b selector p w.now w.page k) (instant k)).outcome = .ok true
    let samples (n : Nat) := ((List.range n).map fun k => (instant k, PageCall.isVisible selector)).reverse
    let ran := (waitVisible selector p).run b w
    ∃ last, IsLeast {k | p.timeout ≤ k * interval} last ∧ instant last = w.now + p.timeout ∧
      (∀ n ≤ last, IsLeast {k | shows k} n →
        ran.1 = true ∧ ran.2.now = instant n ∧ ran.2.calls = samples (n + 1) ++ w.calls) ∧
      ((∀ k ≤ last, ¬ shows k) →
        ran.1 = false ∧ ran.2.now = w.now + p.timeout ∧ ran.2.calls = samples (last + 1) ++ w.calls) ∧
      ∀ fuel > last, (waitVisibleUntil selector interval (w.now + p.timeout) fuel).run b w = ran := by
  intro interval instant shows samples ran
  obtain ⟨last, hlast, hfew, hdeadline⟩ := p.exists_last w.now
  have hran : ran = (waitVisibleUntil selector p.gap (w.now + p.timeout) (p.timeout + 1)).run b w := rfl
  have hfuel : last < p.timeout + 1 := Nat.lt_succ_of_le hfew
  refine ⟨last, hlast, hdeadline, fun n hn hshows => ?_, fun hhides => ?_, fun fuel hmore => ?_⟩
  · rw [hran, run_waitVisibleUntil_of_shows hquick hlast hfuel w hn hshows]
    exact ⟨rfl, rfl, rfl⟩
  · rw [hran, run_waitVisibleUntil_of_hides hquick hlast hfuel w hhides]
    exact ⟨rfl, hdeadline, rfl⟩
  · rw [hran]
    rcases exists_isLeast_or_forall_not shows last with ⟨n, hn, hshows⟩ | hhides
    · exact (run_waitVisibleUntil_of_shows hquick hlast hmore w hn hshows).trans
        (run_waitVisibleUntil_of_shows hquick hlast hfuel w hn hshows).symm
    · exact (run_waitVisibleUntil_of_hides hquick hlast hmore w hhides).trans
        (run_waitVisibleUntil_of_hides hquick hlast hfuel w hhides).symm

/-- A page that shows its elements from some time on. -/
def appearingAt (ms : Nat) : PageBehaviour Unit where
  url _ _ := "https://app.example/home"
  respond c _ now :=
    { duration := 0
      outcome := match c with
        | .isVisible _ => .ok (decide (ms ≤ now))
        | _ => .error (.other "unexpected")
      page := ()
      abandoned := fun _ => () }

theorem shows_appearingAt {ms now : Nat} {page : Unit} : Shows (appearingAt ms) selector page now ↔ ms ≤ now := by
  constructor
  · intro h
    exact of_decide_eq_true (Except.ok.inj h)
  · intro h
    exact congrArg Except.ok (decide_eq_true h)

/-- The wait for an element that is there from 250 milliseconds on. -/
def awaitElement (p : Probe) : Bool × World Unit :=
  (waitVisible "#ok" p).run (appearingAt 250) { page := () }

/-- The look at the deadline still counts, and the nap before it is cut.  Without time and interval there is one
look. -/
theorem waitVisible_looks_appearingAt :
    ((awaitElement ⟨300, 200⟩).1 = true ∧ (awaitElement ⟨300, 200⟩).2.now = 300 ∧
        (awaitElement ⟨300, 200⟩).2.calls = [(300, .isVisible "#ok"), (200, .isVisible "#ok"), (0, .isVisible "#ok")]) ∧
      (awaitElement ⟨0, 0⟩).1 = false ∧ (awaitElement ⟨0, 0⟩).2.now = 0 := by
  constructor
  · obtain ⟨last, hlast, -, hshows, -⟩ :=
      waitVisible_looks (appearingAt 250) "#ok" ⟨300, 200⟩ { page := () } fun _ _ => rfl
    have hbehind : 2 ≤ last := Nat.le_of_not_lt fun h => by
      have : 300 ≤ last * 200 := hlast.1
      omega
    refine hshows 2 hbehind ⟨shows_appearingAt.mpr (by decide), fun k hk => Nat.le_of_not_lt fun h => ?_⟩
    have : 250 ≤ 0 + min (k * 200) 300 := shows_appearingAt.mp hk
    omega
  · obtain ⟨last, -, -, -, hhides, -⟩ :=
      waitVisible_looks (appearingAt 250) "#ok" ⟨0, 0⟩ { page := () } fun _ _ => rfl
    have hnone : ∀ k ≤ last, ¬ Shows (appearingAt 250) "#ok" () (0 + min (k * 1) 0) := by
      intro k _ hk
      have : 250 ≤ 0 + min (k * 1) 0 := shows_appearingAt.mp hk
      omega
    obtain ⟨hfalse, hnow, -⟩ := hhides hnone
    exact ⟨hfalse, hnow⟩

end Page

end SignOn
