import Mathlib.Order.Bounds.Defs
import SignOn.Proofs.FlowOrder
import SignOn.Proofs.Logouts
import SignOn.Proofs.OneTimeCodes
import SignOn.Proofs.Retries

/-! # Codes that last for a while yet

* **Windows.**  A window ends at the next multiple of its length (`isLeast_add_sub_mod`), and
  `Totp.Engine.leftAt` is the time up to there.
* **The wait.**  What the wait for a fresh window leads to: nothing if enough of the present window is left
  (`run_waitForFresh_of_le`), and a time shortly behind the start of the next one if not (`run_waitForFresh_of_lt`).
* **Codes.**  `Totp.Engine.Lasts` says that the present window lasts for some time yet.  It does where no wait is
  needed (`lasts_of_le`) and behind a wait (`lasts_of_lt`), so a one-time code is still good for a while when it is
  entered (`Idp.watches_submitTotp_lasts`).
* `Totp.Engine.fresh_window` puts the wait (`waitForFresh_next`) and the codes together. -/

namespace SignOn

/-- The next multiple of a number. -/
theorem isLeast_add_sub_mod {m : Nat} (hm : 0 < m) (n : Nat) : IsLeast {t | n < t ∧ m ∣ t} (n + (m - n % m)) := by
  have hmod : n % m < m := Nat.mod_lt n hm
  have hnext : n + (m - n % m) = m * (n / m + 1) := Totp.add_sub_mod hm n
  refine ⟨⟨by omega, hnext ▸ Nat.dvd_mul_right m _⟩, ?_⟩
  rintro t ⟨hlt, k, rfl⟩
  have hk : n / m < k := (Nat.div_lt_iff_lt_mul hm).mpr (Nat.mul_comm m k ▸ hlt)
  rw [hnext]
  exact Nat.mul_le_mul_left m hk

namespace Totp.Engine

variable {σ : Type} (b : PageBehaviour σ) (e : Engine)

/-! ### The wait for a fresh window -/

/-- Milliseconds up to the next window, by what a wall clock shows. -/
def leftAt (wall : Int) : Nat :=
  match sinceEpoch wall with
  | .error _ => min (e.step * 1000) maxNat64
  | .ok ms => Totp.millisLeft ms e.step

/-- Milliseconds that have to be left of a window, given in seconds. -/
def threshold (seconds : Nat) : Nat :=
  min (seconds * 1000) maxNat64

/-- The line of the log with which a wait begins. -/
def waitMessage (left : Nat) : String :=
  "only " ++ toString left ++ "ms left in TOTP window, waiting for the next one"

/-- What is done once it is known how much of the window is left. -/
def awaitNext (seconds left : Nat) : Plan Bool :=
  if threshold seconds ≤ left then .done false
  else (e.logger.debug (waitMessage left)).bind fun _ => (Plan.sleep (left + margin)).bind fun _ => .done true

theorem waitForFresh_eq (seconds : Nat) :
    e.waitForFresh seconds = Plan.wallClock.bind fun wall => e.awaitNext seconds (e.leftAt wall) := by
  have hleft : e.millisLeft = Plan.wallClock.bind fun wall => .done (e.leftAt wall) := by
    refine congrArg (Plan.bind _) (funext fun wall => ?_)
    unfold leftAt
    cases sinceEpoch wall <;> rfl
  rw [waitForFresh, hleft, Plan.bind_eq, Plan.bind_assoc]
  rfl

variable {e} in
theorem leftAt_of_nonneg (hstep : 1 ≤ e.step) (hfits : e.step * 1000 ≤ maxNat64) (ms : Nat) :
    e.leftAt ms = e.step * 1000 - ms % (e.step * 1000) := by
  rw [leftAt, sinceEpoch_natCast]
  dsimp only
  rw [Totp.millisLeft, Nat.max_eq_left hstep, Nat.min_eq_left hfits]

section

variable {seconds : Nat} {w : World σ}

theorem run_waitForFresh_of_le (h : threshold seconds ≤ e.leftAt w.wall) :
    (e.waitForFresh seconds).run b w = (false, w) ∧
      ((e.waitForFresh seconds).trace b w).filterMap Event.sleep? = [] := by
  have hplan : e.awaitNext seconds (e.leftAt w.wall) = .done false := if_pos h
  rw [waitForFresh_eq, Plan.run_wallClock, Plan.trace_bind]
  change _ ∧ (_ ++ Plan.trace b (e.awaitNext seconds (e.leftAt w.wall)) w).filterMap Event.sleep? = []
  rw [hplan]
  exact ⟨rfl, rfl⟩

theorem run_waitForFresh_of_lt (h : e.leftAt w.wall < threshold seconds) :
    ((e.waitForFresh seconds).run b w).1 = true ∧
      ((e.waitForFresh seconds).run b w).2.now = w.now + (e.leftAt w.wall + margin) ∧
      ((e.waitForFresh seconds).trace b w).filterMap Event.sleep? = [e.leftAt w.wall + margin] := by
  have hplan : e.awaitNext seconds (e.leftAt w.wall) =
      (e.logger.debug (waitMessage (e.leftAt w.wall))).bind fun _ =>
        (Plan.sleep (e.leftAt w.wall + margin)).bind fun _ => .done true := if_neg (Nat.not_le.mpr h)
  rw [waitForFresh_eq, Plan.run_wallClock, Plan.trace_bind]
  change _ ∧ _ ∧ (_ ++ Plan.trace b (e.awaitNext seconds (e.leftAt w.wall)) w).filterMap Event.sleep? = _
  rw [hplan]
  exact ⟨rfl, rfl, rfl⟩

end

/-! ### Windows that last -/

/-- The present window lasts for so many milliseconds yet. -/
def Lasts (ms : Nat) (w : World σ) : Prop :=
  ∃ n : Nat, n * (e.step * 1000) ≤ w.wall.toNat ∧ w.wall.toNat + ms ≤ (n + 1) * (e.step * 1000)

variable {e} {seconds : Nat} {w : World σ}

/-- Where no wait is made, the window lasts long enough. -/
theorem lasts_of_le (hstep : 1 ≤ e.step) (hlong : seconds * 1000 + margin ≤ e.step * 1000)
    (hfits : e.step * 1000 ≤ maxNat64) (hwall : 0 ≤ w.wall) (h : threshold seconds ≤ e.leftAt w.wall) :
    e.Lasts (seconds * 1000) w := by
  obtain ⟨ms, hms⟩ := Int.eq_ofNat_of_zero_le hwall
  rw [hms, leftAt_of_nonneg hstep hfits, threshold] at h
  have hmod : ms % (e.step * 1000) < e.step * 1000 := Nat.mod_lt _ (by omega)
  have hdiv := Nat.div_add_mod' ms (e.step * 1000)
  refine ⟨ms / (e.step * 1000), ?_, ?_⟩
  · rw [hms, Int.toNat_natCast]
    exact Nat.div_mul_le_self _ _
  · rw [hms, Int.toNat_natCast, Nat.succ_mul]
    omega

/-- Behind a wait the window has only just begun. -/
theorem lasts_of_lt (hstep : 1 ≤ e.step) (hlong : seconds * 1000 + margin ≤ e.step * 1000)
    (hfits : e.step * 1000 ≤ maxNat64) (h : e.leftAt w.wall < threshold seconds) {v : World σ}
    (hv : v.wall = w.wall + (e.leftAt w.wall + margin : Nat)) : e.Lasts (seconds * 1000) v := by
  have hwall : ¬ w.wall < 0 := by
    intro hwall
    rw [leftAt, sinceEpoch, if_pos hwall, threshold] at h
    dsimp only at h
    omega
  obtain ⟨ms, hms⟩ := Int.eq_ofNat_of_zero_le (Int.not_lt.mp hwall)
  rw [hms, leftAt_of_nonneg hstep hfits] at hv
  have hmod : ms % (e.step * 1000) < e.step * 1000 := Nat.mod_lt _ (by omega)
  have hdiv := Nat.div_add_mod' ms (e.step * 1000)
  refine ⟨ms / (e.step * 1000) + 1, ?_, ?_⟩
  · rw [Nat.succ_mul]
    omega
  · rw [Nat.succ_mul, Nat.succ_mul]
    omega

end Totp.Engine

/-! ### Codes that are entered -/

section

variable {σ β : Type} {b : PageBehaviour σ} {w : World σ}

theorem Plan.watches_waitForFresh {F : World σ → String → String → Prop} {e : Totp.Engine} {seconds : Nat}
    {g : Bool → Plan β}
    (hstays : Totp.Engine.threshold seconds ≤ e.leftAt w.wall → (g false).Watches b (fun v r => r.Enters (F v)) w)
    (hwaits : e.leftAt w.wall < Totp.Engine.threshold seconds →
      ∀ v, World.Frozen w v → v.now = w.now + (e.leftAt w.wall + Totp.margin) →
        (g true).Watches b (fun v r => r.Enters (F v)) v) :
    ((e.waitForFresh seconds).bind g).Watches b (fun v r => r.Enters (F v)) w := by
  rw [e.waitForFresh_eq, Plan.bind_assoc]
  refine watches_wallClock trivial ?_
  rcases Nat.lt_or_ge (e.leftAt w.wall) (Totp.Engine.threshold seconds) with hshort | henough
  · rw [Totp.Engine.awaitNext, if_neg (Nat.not_le.mpr hshort)]
    exact ⟨trivial, trivial, hwaits hshort _ (.refl w) rfl⟩
  · rw [Totp.Engine.awaitNext, if_pos henough]
    exact hstays henough

theorem Attempt.watches_page_bind {A : World σ → Request → Prop} {role : String} {phase : AuthPhase} {c : PageCall}
    {f : c.Value → Attempt β} (h : A w (.page c)) (hf : ∀ x, (f x).Watches b A (w.step b (.page c)).after) :
    (Attempt.page role phase c >>= f).Watches b A w := by
  refine ⟨h, ?_⟩
  cases hr : (w.step b (.page c)).reply with
  | ok x => exact hf x
  | error e => exact trivial

end

namespace Idp

variable {σ : Type} {b : PageBehaviour σ} {ctx : Context} {w : World σ}

/-- What is entered as a one-time code is a code of the present window, and that window lasts for a while yet. -/
theorem watches_submitTotp_lasts (hgoes : w.wallStopped = false) (hstep : ctx.totp.step = Totp.defaultStep)
    (ch : Challenge) (input submit : String) :
    (submitTotp ctx ch input submit).Watches b
      (fun v r => r.Enters fun s value => s = ch.mfa.inputSelector.getD input ∧
        ∃ secret, ch.secret = some secret ∧ ctx.totp.IsCode secret v value ∧
          ctx.totp.Lasts (freshness * 1000) v) w := by
  unfold submitTotp
  cases hsecret : ch.secret with
  | none => exact trivial
  | some secret =>
      have hcode : ∀ u : World σ, (0 ≤ u.wall → ctx.totp.Lasts (freshness * 1000) u) →
          (enterCode ctx secret (ch.mfa.inputSelector.getD input) (ch.mfa.submitSelector.getD submit)).Watches b
            (fun v r => r.Enters fun s value => s = ch.mfa.inputSelector.getD input ∧
              ∃ s, some secret = some s ∧ ctx.totp.IsCode s v value ∧ ctx.totp.Lasts (freshness * 1000) v) u := by
        intro u hlasts
        refine (watches_enterCode secret _ _ u).mono fun v _ hr => hr.mono ?_
        rintro s value ⟨rfl, hs, hcode⟩
        exact ⟨hs, secret, rfl, hcode, hlasts hcode.1⟩
      have hone : 1 ≤ ctx.totp.step := by rw [hstep]; decide
      have hlong : freshness * 1000 + Totp.margin ≤ ctx.totp.step * 1000 := by rw [hstep]; decide
      have hfits : ctx.totp.step * 1000 ≤ Totp.maxNat64 := by rw [hstep]; decide
      refine Attempt.watches_page_bind trivial fun _ => ?_
      obtain ⟨v, hv⟩ : ∃ v, (w.step b (.page (.waitForSelector (ch.mfa.inputSelector.getD input)
          ctx.fieldTimeout))).after = v := ⟨_, rfl⟩
      have hgoes : v.wallStopped = false := hv ▸ hgoes
      rw [hv, Attempt.Watches, Attempt.run_of_bind]
      refine Plan.watches_waitForFresh (fun henough => ?_) fun hshort u hfrozen hnow => ?_
      · exact hcode v fun hwall => Totp.Engine.lasts_of_le hone hlong hfits hwall henough
      · have hlasts := Totp.Engine.lasts_of_lt hone hlong hfits hshort (hfrozen.wall_add hgoes hnow)
        exact ⟨trivial, hcode _ fun _ => hlasts⟩

theorem goesOn_logged (waited : Bool) (l : Logger) (message : String) (p : Attempt Unit) (w : World σ) :
    ∃ before u, u.wall = w.wall ∧
      Attempt.GoesOn b (do
        if waited then Attempt.of (l.debug message)
        p) w before p u := by
  cases waited with
  | false => exact ⟨[], w, rfl, .refl p w⟩
  | true => exact ⟨_, (w.step b (.log .debug l.component message)).after, rfl, .of_bind rfl (.refl p _)⟩

/-- Once the field of codes is there, a code is made and entered, at some later time. -/
theorem goesOn_submitTotp {ch : Challenge} {secret : String} (hsecret : ch.secret = some secret) (input submit : String)
    (hfield : (b.respond (.waitForSelector (ch.mfa.inputSelector.getD input) ctx.fieldTimeout) w.page w.now).outcome =
      .ok ()) :
    ∃ before u, w.wall ≤ u.wall ∧
      Attempt.GoesOn b (submitTotp ctx ch input submit) w before
        (enterCode ctx secret (ch.mfa.inputSelector.getD input) (ch.mfa.submitSelector.getD submit)) u := by
  let field : Request := .page (.waitForSelector (ch.mfa.inputSelector.getD input) ctx.fieldTimeout)
  have hcall : w.wall ≤ (w.step b field).after.wall :=
    (World.frozen_step b field w).1.wall_le (World.now_le_step b field w).1
  obtain ⟨v, hv⟩ : ∃ v, (w.step b field).after = v := ⟨_, rfl⟩
  obtain ⟨⟨waited, t⟩, hrun⟩ : ∃ ran, (ctx.totp.waitForFresh freshness).run b v = ran := ⟨_, rfl⟩
  have hwait : v.wall ≤ t.wall := by
    have hle := (Plan.frozen_run b (ctx.totp.waitForFresh freshness) v).wall_le
      (Plan.now_le_run b (ctx.totp.waitForFresh freshness) v)
    rwa [hrun] at hle
  obtain ⟨before, u, hu, hgoes⟩ := goesOn_logged (b := b) waited ctx.logger "waited for a fresh TOTP window"
    (enterCode ctx secret (ch.mfa.inputSelector.getD input) (ch.mfa.submitSelector.getD submit)) t
  rw [hv] at hcall
  have hlate : w.wall ≤ u.wall := by omega
  rw [submitTotp, hsecret]
  exact ⟨_, u, hlate, .page_bind hfield (.of_bind (hv.symm ▸ hrun) hgoes)⟩

theorem exists_mem_trace_enterCode {secret code : String} (hcode : ctx.totp.IsCode secret w code)
    (input submit : String) :
    ∃ e ∈ (enterCode ctx secret input submit).run.trace b w, e.request = .page (.fill input code) := by
  have hof : ctx.totp.codeOf secret w.wall = .ok code := by
    rw [Totp.Engine.codeOf, Totp.sinceEpoch, if_neg (Int.not_lt.mpr hcode.1)]
    exact hcode.2
  have hclock : Plan.wallClock.run b w = (w.wall, w) := rfl
  rw [enterCode, Attempt.run_of_bind, Totp.Engine.generate_bind, Plan.trace_bind, hclock, hof]
  exact ⟨_, List.mem_append_right _ List.mem_cons_self, rfl⟩

end Idp

/-! ### Fresh codes -/

namespace Totp.Engine

section

variable {σ : Type} {b : PageBehaviour σ} {w : World σ}

theorem IsCode.exists_window {e : Engine} (hstep : 1 ≤ e.step) {secret code : String} (h : e.IsCode secret w code)
    {ms : Nat} (hms : 1 ≤ ms) (hlasts : e.Lasts ms w) :
    ∃ n : Nat, codeAt e.step secret (n * e.step) = .ok code ∧ ((n * (e.step * 1000) : Nat) : Int) ≤ w.wall ∧
      w.wall + ms ≤ ((n + 1) * (e.step * 1000) : Nat) := by
  obtain ⟨hwall, hcode⟩ := h
  obtain ⟨n, hfrom, hto⟩ := hlasts
  have hwindow : w.wall.toNat / 1000 / e.step = n := by
    rw [Nat.div_div_eq_div_mul, Nat.mul_comm 1000]
    exact Nat.div_eq_of_lt_le hfrom (by omega)
  refine ⟨n, ?_, by omega, by omega⟩
  rw [← hcode, ← codeAt_div_mul hstep secret (w.wall.toNat / 1000), hwindow]

/-- A wait is made just if less than the given time is left, and it ends shortly behind the next window's start. -/
theorem waitForFresh_next (hgoes : w.wallStopped = false) (e : Engine) (seconds : Nat) {ms : Nat}
    (hstep : 1 ≤ e.step) (hfits : e.step * 1000 ≤ maxNat64) (hms : w.wall = ms) :
    ∃ next, IsLeast {t | ms < t ∧ e.step * 1000 ∣ t} next ∧
      let ran := (e.waitForFresh seconds).run b w
      let sleeps := ((e.waitForFresh seconds).trace b w).filterMap Event.sleep?
      (ran.1 = false ↔ threshold seconds ≤ next - ms) ∧
      (ran.1 = false → ran.2 = w ∧ sleeps = []) ∧
      (ran.1 = true → ran.2.wall = next + margin ∧ sleeps = [next - ms + margin]) := by
  have hleft : e.leftAt w.wall = e.step * 1000 - ms % (e.step * 1000) := hms ▸ leftAt_of_nonneg hstep hfits ms
  refine ⟨ms + e.leftAt w.wall, hleft ▸ isLeast_add_sub_mod (by omega) ms, ?_⟩
  rw [Nat.add_sub_cancel_left]
  rcases Nat.lt_or_ge (e.leftAt w.wall) (threshold seconds) with hshort | henough
  · obtain ⟨hwaits, hnow, hsleeps⟩ := run_waitForFresh_of_lt b e hshort
    have hwall := (Plan.frozen_run b (e.waitForFresh seconds) w).wall_add hgoes hnow
    dsimp only
    rw [hwaits]
    refine ⟨iff_of_false nofun (Nat.not_le.mpr hshort), nofun, fun _ => ⟨?_, hsleeps⟩⟩
    rw [hwall, hms]
    omega
  · obtain ⟨hrun, hsleeps⟩ := run_waitForFresh_of_le b e henough
    dsimp only
    rw [hrun]
    exact ⟨iff_of_true rfl henough, fun _ => ⟨rfl, hsleeps⟩, nofun⟩

/-- While the wall clock goes, a wait for a fresh window ends a tenth of a second behind the start of the next one,
and it is made just if less than the given time is left of the present one.  So the code that is entered as a second
factor is one of a window that lasts for five more seconds, and it is entered once its field is there. -/
theorem fresh_window (b : PageBehaviour σ) (w : World σ) (hgoes : w.wallStopped = false) :
    (∀ (e : Engine) (threshold ms : Nat), 1 ≤ e.step → e.step * 1000 + 100 < UInt64.size → w.wall = ms →
      ∃ next, IsLeast {t | ms < t ∧ e.step * 1000 ∣ t} next ∧
        let ran := (e.waitForFresh threshold).run b w
        let sleeps := ((e.waitForFresh threshold).trace b w).filterMap Event.sleep?
        (ran.1 = false ↔ min (threshold * 1000) (UInt64.size - 1) ≤ next - ms) ∧
        (ran.1 = false → ran.2 = w ∧ sleeps = []) ∧
        (ran.1 = true → ran.2.wall = next + 100 ∧ sleeps = [next - ms + 100])) ∧
    ∀ (ctx : Idp.Context) (ch : Idp.Challenge) (input submit secret : String),
      ctx.totp.step = 30 → ch.secret = some secret →
      let field := ch.mfa.inputSelector.getD input
      let entry := (Idp.submitTotp ctx ch input submit).run
      (∀ e : Event σ, (e ∈ entry.trace b w ∨ ∃ limit, e ∈ (entry.within limit).trace b w) →
        ∀ selector code, e.request = .page (.fill selector code) →
          selector = field ∧ ∃ n : Nat, codeAt 30 secret (n * 30) = .ok code ∧
            n * 30000 ≤ e.world.wall ∧ e.world.wall + 5000 ≤ (n + 1) * 30000) ∧
      (0 ≤ w.wall → (∃ key, secretBytes secret = .ok key) →
        (b.respond (.waitForSelector field ctx.fieldTimeout) w.page w.now).outcome = .ok () →
        ∃ e ∈ entry.trace b w, ∃ code, e.request = .page (.fill field code)) := by
  constructor
  · intro e seconds ms hstep hfits hms
    have hmax : e.step * 1000 ≤ maxNat64 := by
      rw [UInt64.size] at hfits
      rw [maxNat64, UInt64.size]
      omega
    exact waitForFresh_next hgoes e seconds hstep hmax hms
  · intro ctx ch input submit secret hstep hsecret
    have hwatch := Idp.watches_submitTotp_lasts (b := b) hgoes hstep ch input submit
    have hone : 1 ≤ ctx.totp.step := by rw [hstep]; decide
    constructor
    · intro e he selector code hfill
      have hmade : e.request.Enters _ :=
        he.elim (fun he => Plan.Watches.of_mem_trace hwatch he) fun hcut =>
          hcut.elim fun limit he => (Plan.Watches.within hwatch limit).of_mem_trace he
      rw [hfill] at hmade
      obtain ⟨hfield, s, hs, hcode, hlasts⟩ := hmade
      obtain rfl : secret = s := Option.some.inj (hsecret.symm.trans hs)
      obtain ⟨n, hn, hfrom, hto⟩ := hcode.exists_window hone (by decide) hlasts
      rw [hstep] at hn hfrom hto
      exact ⟨hfield, n, hn, by omega, by
        simp only [Idp.freshness] at hto
        omega⟩
    · rintro hwall ⟨key, hkey⟩ hfield
      obtain ⟨before, u, hlate, hgoes⟩ := Idp.goesOn_submitTotp hsecret input submit hfield
      have hcode : ctx.totp.IsCode secret u (windowCode key (u.wall.toNat / 1000 / ctx.totp.step)) :=
        ⟨Int.le_trans hwall hlate, codeAt_of_secretBytes hkey _⟩
      obtain ⟨e, he, hfill⟩ := Idp.exists_mem_trace_enterCode (b := b) hcode (ch.mfa.inputSelector.getD input)
        (ch.mfa.submitSelector.getD submit)
      exact ⟨e, hgoes.trace ▸ List.mem_append_right before he, _, hfill⟩

/-- Four seconds before the end of a window a wait is made, and the code is one of the next window. -/
theorem fresh_window_smoothPage :
    let w : World Unit := { page := (), epoch := 26000 }
    let entry := (Idp.submitTotp default ⟨{}, some "MZXW6YTBOI"⟩ "#code" "#submit").run
    (w.wallStopped = false ∧ 30 * 1000 + 100 < UInt64.size) ∧
      ((({} : Engine).waitForFresh 5).run Flow.smoothPage w).1 = true ∧
      ((({} : Engine).waitForFresh 5).run Flow.smoothPage w).2.wall = 30100 ∧
      ∃ e ∈ entry.trace Flow.smoothPage w, ∃ code n, e.request = .page (.fill "#code" code) ∧
        codeAt 30 "MZXW6YTBOI" (n * 30) = .ok code ∧
        n * 30000 ≤ e.world.wall ∧ e.world.wall + 5000 ≤ (n + 1) * 30000 := by
  intro w entry
  obtain ⟨hwait, hcodes⟩ := fresh_window Flow.smoothPage w rfl
  obtain ⟨next, hnext, hstays, -, hwaits⟩ := hwait {} 5 26000 (by decide) (by decide) rfl
  have hleast := isLeast_add_sub_mod (m := 30000) (by decide) 26000
  obtain rfl : next = 30000 := Nat.le_antisymm (hnext.2 hleast.1) (hleast.2 hnext.1)
  have hran : ((({} : Engine).waitForFresh 5).run Flow.smoothPage w).1 = true :=
    Bool.not_eq_false _ ▸ fun h => absurd (hstays.mp h) (by decide)
  have hkey : secretBytes "MZXW6YTBOI" = .ok [102, 111, 111, 98, 97, 114] :=
    secretBytes_of_decode? (by decide +kernel) (by decide)
  obtain ⟨hfills, hfilled⟩ := hcodes default ⟨{}, some "MZXW6YTBOI"⟩ "#code" "#submit" "MZXW6YTBOI" rfl rfl
  obtain ⟨e, he, code, hfill⟩ := hfilled (by decide) ⟨_, hkey⟩ rfl
  obtain ⟨-, n, hcode, hfrom, hto⟩ := hfills e (.inl he) _ _ hfill
  exact ⟨⟨rfl, by decide⟩, hran, (hwaits hran).1, e, he, code, n, hfill, hcode, hfrom, hto⟩

end

end Totp.Engine

end SignOn
