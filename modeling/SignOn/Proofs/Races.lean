import Mathlib.Order.Bounds.Basic
import SignOn.Page.Look
import SignOn.World

/-! # Waits for the page behind a login that race

Where both an address and an element show that a login has succeeded, the two waits for them race.

* `Race.Decides` says which wait a race comes to: the earliest one that succeeds, or the last one if all fail.
* `Race.exists_decides` is the loop: whatever is looked at first, it comes to the wait that decides.
  `Race.Decides.wait_eq` says that this is always the same wait, unless both fail at the same time.
* `Page.waitForSuccess_race` is the wait for the page behind a login that comes out of it. -/

namespace SignOn

namespace Race

variable {r : Race} {p : Pending} {s t : Side}

/-! ### Pending waits -/

/-- The wait on a side still goes on. -/
def Pending.Has : Pending → Side → Prop
  | .both, _ => True
  | .only s, t => t = s

namespace Pending

theorem has_of_without {rest : Pending} {hless : rest.count < p.count} (h : p.without s = some ⟨rest, hless⟩) :
    rest.Has t ↔ p.Has t ∧ t ≠ s := by
  cases p with
  | both =>
      obtain rfl := congrArg Subtype.val (Option.some.inj h)
      cases s <;> cases t <;> simp [Has, Side.other]
  | only u => cases h

theorem eq_of_without_eq_none (h : p.without s = none) (hs : p.Has s) (ht : p.Has t) : t = s := by
  cases p with
  | both => cases h
  | only u => exact Eq.trans ht (Eq.symm hs)

end Pending

theorem has_next (r : Race) (p : Pending) : p.Has (r.next p) := by
  cases p with
  | both => exact trivial
  | only s => exact rfl

theorem duration_next_le (h : p.Has s) : (r.wait (r.next p)).duration ≤ (r.wait s).duration := by
  cases p with
  | both =>
      have hside : s = r.favourite ∨ s = r.favourite.other := by
        cases s <;> cases r.favourite <;> simp [Side.other]
      rw [next]
      split <;> rcases hside with rfl | rfl <;> omega
  | only u =>
      obtain rfl : s = u := h
      exact Nat.le_refl _

/-! ### The wait that decides -/

/-- The wait on a side decides about those that are pending: it is the earliest of those that succeed, or all fail
and it is the last of them. -/
inductive Decides (r : Race) (p : Pending) (s : Side) : Prop where
  | succeeds (hs : p.Has s) (hok : (r.wait s).outcome = .ok ())
    (hfirst : ∀ t, p.Has t → (r.wait t).outcome = .ok () → (r.wait s).duration ≤ (r.wait t).duration)
  | fails (hs : p.Has s) (hnone : ∀ t, p.Has t → (r.wait t).outcome ≠ .ok ())
    (hlast : ∀ t, p.Has t → (r.wait t).duration ≤ (r.wait s).duration)

/-- A wait that fails leaves the decision to those that still go on, as long as it is over before them. -/
theorem Decides.of_rest {rest : Pending} {hless : rest.count < p.count} {e : PageError}
    (hrest : p.without (r.next p) = some ⟨rest, hless⟩) (hfailed : (r.wait (r.next p)).outcome = .error e)
    (h : r.Decides rest s) : r.Decides p s := by
  have hhas : ∀ {t}, rest.Has t ↔ p.Has t ∧ t ≠ r.next p := Pending.has_of_without hrest
  have hok : ∀ t, p.Has t → (r.wait t).outcome = .ok () → rest.Has t := by
    intro t ht hok
    refine hhas.mpr ⟨ht, ?_⟩
    rintro rfl
    cases hfailed.symm.trans hok
  cases h with
  | succeeds hs hsucceeds hfirst =>
      exact .succeeds (hhas.mp hs).1 hsucceeds fun t ht htok => hfirst t (hok t ht htok) htok
  | fails hs hnone hlast =>
      refine .fails (hhas.mp hs).1 (fun t ht htok => hnone t (hok t ht htok) htok) fun t ht => ?_
      by_cases hnext : t = r.next p
      · rw [hnext]
        exact duration_next_le (hhas.mp hs).1
      · exact hlast t (hhas.mpr ⟨ht, hnext⟩)

/-- The loop comes to the wait that decides, provided that no pending wait has been over before. -/
theorem exists_decides (r : Race) (elapsed : Nat) (p : Pending)
    (h : ∀ s, p.Has s → elapsed ≤ (r.wait s).duration) :
    ∃ s, r.Decides p s ∧ r.settle elapsed p = r.wait s := by
  fun_induction settle r elapsed p with
  | case1 elapsed p s reached u hok =>
      refine ⟨s, .succeeds (has_next r p) hok fun t ht _ => duration_next_le ht, ?_⟩
      have hreached : reached = (r.wait s).duration := Nat.max_eq_right (h s (has_next r p))
      rw [hreached, ← hok]
  | case2 elapsed p s reached e hfailed hnone =>
      have honly : ∀ t, p.Has t → t = s := fun t ht => Pending.eq_of_without_eq_none hnone (has_next r p) ht
      refine ⟨s, .fails (has_next r p) (fun t ht hok => ?_) fun t ht => ?_, ?_⟩
      · rw [honly t ht, hfailed] at hok
        cases hok
      · rw [honly t ht]
      · have hreached : reached = (r.wait s).duration := Nat.max_eq_right (h s (has_next r p))
        rw [hreached, ← hfailed]
  | case3 elapsed p s reached e hfailed rest hless hrest ih =>
      have hreached : reached = (r.wait s).duration := Nat.max_eq_right (h s (has_next r p))
      obtain ⟨t, ht, hsettle⟩ := ih fun t ht => by
        rw [hreached]
        exact duration_next_le ((Pending.has_of_without hrest).mp ht).1
      exact ⟨t, ht.of_rest hrest hfailed, hsettle⟩

/-- It does not matter which wait is looked at first, unless all of them fail and two do so at the same time. -/
theorem Decides.wait_eq (hs : r.Decides p s) (ht : r.Decides p t)
    (hties : (∀ u, p.Has u → (r.wait u).outcome ≠ .ok ()) → (r.wait s).duration = (r.wait t).duration → s = t) :
    r.wait s = r.wait t := by
  cases hs with
  | succeeds hs hsok hsfirst =>
      cases ht with
      | succeeds ht htok htfirst =>
          have hduration := Nat.le_antisymm (hsfirst t ht htok) (htfirst s hs hsok)
          exact congrArg₂ Wait.mk hduration (hsok.trans htok.symm)
      | fails ht hnone => exact absurd hsok (hnone s hs)
  | fails hs hnone hslast =>
      cases ht with
      | succeeds ht htok => exact absurd htok (hnone t ht)
      | fails ht _ htlast =>
          rw [hties hnone (Nat.le_antisymm (htlast s hs) (hslast t ht))]

/-! ### Two waits from their start -/

theorem exists_decides_both (r : Race) : ∃ s, r.Decides .both s ∧ r.settle 0 .both = r.wait s :=
  exists_decides r 0 .both fun _ _ => Nat.zero_le _

theorem outcome_settle_eq_ok_iff (r : Race) :
    (r.settle 0 .both).outcome = .ok () ↔ r.address.outcome = .ok () ∨ r.element.outcome = .ok () := by
  obtain ⟨s, hs, hsettle⟩ := r.exists_decides_both
  rw [hsettle]
  cases hs with
  | succeeds _ hok =>
      refine iff_of_true hok ?_
      cases s with
      | address => exact .inl hok
      | element => exact .inr hok
  | fails _ hnone =>
      refine iff_of_false (hnone s trivial) ?_
      rintro (hok | hok)
      · exact hnone .address trivial hok
      · exact hnone .element trivial hok

theorem isLeast_duration_settle (h : (r.settle 0 .both).outcome = .ok ()) :
    IsLeast {ms | r.address.outcome = .ok () ∧ ms = r.address.duration ∨
      r.element.outcome = .ok () ∧ ms = r.element.duration} (r.settle 0 .both).duration := by
  obtain ⟨s, hs, hsettle⟩ := r.exists_decides_both
  rw [hsettle] at h ⊢
  cases hs with
  | succeeds _ hok hfirst =>
      constructor
      · cases s with
        | address => exact .inl ⟨hok, rfl⟩
        | element => exact .inr ⟨hok, rfl⟩
      · rintro ms (⟨ht, rfl⟩ | ⟨ht, rfl⟩)
        · exact hfirst .address trivial ht
        · exact hfirst .element trivial ht
  | fails _ hnone => exact absurd h (hnone s trivial)

theorem settle_eq_error {e : PageError} (h : (r.settle 0 .both).outcome = .error e) :
    (r.settle 0 .both).duration = max r.address.duration r.element.duration ∧
      (r.element.duration < r.address.duration → r.address.outcome = .error e) ∧
      (r.address.duration < r.element.duration → r.element.outcome = .error e) := by
  obtain ⟨s, hs, hsettle⟩ := r.exists_decides_both
  rw [hsettle] at h ⊢
  cases hs with
  | succeeds _ hok => cases hok.symm.trans h
  | fails _ _ hlast =>
      have haddress : r.address.duration ≤ (r.wait s).duration := hlast .address trivial
      have helement : r.element.duration ≤ (r.wait s).duration := hlast .element trivial
      cases s with
      | address =>
          refine ⟨(Nat.max_eq_left helement).symm, fun _ => h, fun hlater => ?_⟩
          exact absurd hlater (Nat.not_lt.mpr helement)
      | element =>
          refine ⟨(Nat.max_eq_right haddress).symm, fun hlater => ?_, fun _ => h⟩
          exact absurd hlater (Nat.not_lt.mpr haddress)

theorem duration_settle_le (r : Race) :
    (r.settle 0 .both).duration ≤ max r.address.duration r.element.duration := by
  obtain ⟨s, -, hsettle⟩ := r.exists_decides_both
  rw [hsettle]
  cases s with
  | address => exact Nat.le_max_left _ _
  | element => exact Nat.le_max_right _ _

/-- What is looked at first does not matter, unless both waits fail at the same time. -/
theorem settle_favourite (address element : Wait) (first first' : Side)
    (h : address.outcome = .ok () ∨ element.outcome = .ok () ∨ address.duration ≠ element.duration) :
    settle ⟨address, element, first⟩ 0 .both = settle ⟨address, element, first'⟩ 0 .both := by
  obtain ⟨s, hs, hsettle⟩ := exists_decides_both ⟨address, element, first⟩
  obtain ⟨t, ht, hsettle'⟩ := exists_decides_both ⟨address, element, first'⟩
  rw [hsettle, hsettle']
  have ht : Decides ⟨address, element, first⟩ .both t := by
    cases ht with
    | succeeds ht hok hfirst => exact .succeeds ht hok hfirst
    | fails ht hnone hlast => exact .fails ht hnone hlast
  refine hs.wait_eq ht fun hnone htie => ?_
  rcases h with hok | hok | hdiffer
  · exact absurd hok (hnone .address trivial)
  · exact absurd hok (hnone .element trivial)
  · cases s <;> cases t <;> first | rfl | exact absurd htie hdiffer | exact absurd htie.symm hdiffer

end Race

namespace Page

variable {σ : Type}

theorem run_waitForSuccess_race (b : PageBehaviour σ) {c : SuccessCriteria} {m : UrlMatch} {selector : String}
    (hurl : c.url = some m) (hselector : c.selector = some selector) (timeout : Nat) (w : World σ) :
    let settled := (b.race m selector timeout .element w.page w.now).settle 0 .both
    let ran := (waitForSuccess c timeout).run b w
    ran.1 = settled.outcome ∧ ran.2.now = w.now + settled.duration ∧
      ran.2.calls = (w.now, .waitForSelector selector timeout) :: (w.now, .waitForUrl m timeout) :: w.calls := by
  rw [waitForSuccess, hurl, hselector]
  exact ⟨rfl, rfl, rfl⟩

/-- **The first success ends the wait for the page behind a login.**  Let both an address and an element be waited
for, each wait taking as long as it takes on its own.  The race of the two succeeds exactly if one of them does, at
the earliest time at which one does, be it behind a failure of the other.  It fails only when both have failed, with
the failure of the later one.  It takes no longer than the timeout if both waits keep to it, and each wait is asked
for once.  Which wait is looked at first does not matter, unless both fail at the same time. -/
theorem waitForSuccess_race (b : PageBehaviour σ) (c : SuccessCriteria) {m : UrlMatch} {selector : String}
    (hurl : c.url = some m) (hselector : c.selector = some selector) (timeout : Nat) (w : World σ) :
    let address := (b.respond (.waitForUrl m timeout) w.page w.now).wait
    let element := (b.respond (.waitForSelector selector timeout) w.page w.now).wait
    let ran := (waitForSuccess c timeout).run b w
    (ran.1 = .ok () ↔ address.outcome = .ok () ∨ element.outcome = .ok ()) ∧
      (ran.1 = .ok () → IsLeast {t | address.outcome = .ok () ∧ t = w.now + address.duration ∨
        element.outcome = .ok () ∧ t = w.now + element.duration} ran.2.now) ∧
      (∀ e, ran.1 = .error e → ran.2.now = w.now + max address.duration element.duration ∧
        (element.duration < address.duration → address.outcome = .error e) ∧
        (address.duration < element.duration → element.outcome = .error e)) ∧
      (address.duration ≤ timeout → element.duration ≤ timeout → ran.2.now ≤ w.now + timeout) ∧
      ran.2.calls = (w.now, .waitForSelector selector timeout) :: (w.now, .waitForUrl m timeout) :: w.calls ∧
      ∀ favourite, (address.outcome = .ok () ∨ element.outcome = .ok () ∨ address.duration ≠ element.duration) →
        let settled := (b.race m selector timeout favourite w.page w.now).settle 0 .both
        ran.1 = settled.outcome ∧ ran.2.now = w.now + settled.duration := by
  intro address element ran
  obtain ⟨houtcome, hnow, hcalls⟩ := run_waitForSuccess_race b hurl hselector timeout w
  change ran.1 = _ at houtcome
  change ran.2.now = _ at hnow
  let r : Race := b.race m selector timeout .element w.page w.now
  refine ⟨?_, fun hok => ?_, fun e he => ?_, fun haddress helement => ?_, hcalls, fun favourite hties => ?_⟩
  · rw [houtcome]
    exact r.outcome_settle_eq_ok_iff
  · rw [houtcome] at hok
    obtain ⟨hends, hfirst⟩ := r.isLeast_duration_settle hok
    rw [hnow]
    constructor
    · exact hends.imp (fun h => ⟨h.1, congrArg (w.now + ·) h.2⟩) fun h => ⟨h.1, congrArg (w.now + ·) h.2⟩
    · rintro t (⟨ht, rfl⟩ | ⟨ht, rfl⟩)
      · exact Nat.add_le_add_left (hfirst (.inl ⟨ht, rfl⟩)) _
      · exact Nat.add_le_add_left (hfirst (.inr ⟨ht, rfl⟩)) _
  · rw [houtcome] at he
    obtain ⟨hduration, hfails⟩ := r.settle_eq_error he
    exact ⟨hnow.trans (congrArg (w.now + ·) hduration), hfails⟩
  · rw [hnow]
    exact Nat.add_le_add_left (r.duration_settle_le.trans (Nat.max_le.mpr ⟨haddress, helement⟩)) _
  · have hsettled := Race.settle_favourite address element .element favourite hties
    exact ⟨houtcome.trans (congrArg Wait.outcome hsettled),
      hnow.trans (congrArg (w.now + ·.duration) hsettled)⟩

/-- A page whose waits for an address and for an element take so long and end so; nothing else succeeds. -/
def waitingPage (address element : Wait) : PageBehaviour Unit where
  url _ _ := "https://app.example/login"
  respond c _ _ :=
    match c with
    | .waitForUrl .. => ⟨address.duration, address.outcome, (), fun _ => ()⟩
    | .waitForSelector .. => ⟨element.duration, element.outcome, (), fun _ => ()⟩
    | _ => ⟨0, .error (.other "unexpected"), (), fun _ => ()⟩

/-- The wait for the address breaks off, and the element comes later. -/
def latePage : PageBehaviour Unit :=
  waitingPage ⟨100, .error (.other "frame detached")⟩ ⟨300, .ok ()⟩

/-- Neither the address nor the element comes. -/
def strandedPage : PageBehaviour Unit :=
  waitingPage ⟨301, .error (.timeout "url containing '/home'" 300)⟩ ⟨300, .error (.timeout "selector '#avatar'" 300)⟩

/-- A wait of 300 milliseconds for a page that shows by its address and by an avatar. -/
def awaitAvatar (b : PageBehaviour Unit) : Except PageError Unit × World Unit :=
  (waitForSuccess { url := some (.contains "/home"), selector := some "#avatar" } 300).run b { page := () }

/-- An element that comes behind the failure of the other wait counts; if neither wait succeeds, the later failure is
the one that is told. -/
theorem waitForSuccess_race_avatar :
    ((awaitAvatar latePage).1 = .ok () ∧ (awaitAvatar latePage).2.now = 300) ∧
      (awaitAvatar strandedPage).1 = .error (.timeout "url containing '/home'" 300) ∧
        (awaitAvatar strandedPage).2.now = 301 := by
  constructor
  · obtain ⟨hok, hleast, -⟩ := waitForSuccess_race latePage
      { url := some (.contains "/home"), selector := some "#avatar" } rfl rfl 300 { page := () }
    have hsucceeds := hok.mpr (.inr rfl)
    obtain ⟨hends, -⟩ := hleast hsucceeds
    rcases hends with ⟨haddress, -⟩ | ⟨-, hnow⟩
    · cases haddress
    · exact ⟨hsucceeds, hnow⟩
  · obtain ⟨hok, -, herror, -⟩ := waitForSuccess_race strandedPage
      { url := some (.contains "/home"), selector := some "#avatar" } rfl rfl 300 { page := () }
    cases hran : (awaitAvatar strandedPage).1 with
    | ok u => rcases hok.mp hran with h | h <;> cases h
    | error e =>
        obtain ⟨hnow, haddress, -⟩ := herror e hran
        obtain rfl := Except.error.inj (haddress (by decide))
        exact ⟨rfl, hnow⟩

end Page

end SignOn
