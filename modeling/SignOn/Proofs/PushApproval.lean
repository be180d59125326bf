import SignOn.Idp.Handler
import SignOn.Proofs.Probes
import SignOn.Proofs.Traces

/-! # Waiting for the approval of a push

A push counts as approved when the page leaves the host that shows the challenge.  The page is looked at every
few milliseconds, so the wait goes by looks, not by the clock alone.

* `Idp.hostAt` is the host that a page shows at a time; nothing that is done while waiting changes the page.
* `Idp.run_awaitLeaving_look` is one look, `Idp.run_awaitLeaving` any number of looks that see nothing new.
* `Idp.lastLook` is the number of the look that ends the wait: the first one that is not before the time is
  over, so that the wait may go on behind it for less than one interval.
* `Idp.run_awaitPush_of_leaves` and `Idp.run_awaitPush_of_stays` are the two ways a wait ends, and
  `Idp.awaitPush_looks` puts them together. -/

namespace SignOn.Idp

variable {σ : Type} {b : PageBehaviour σ} {ctx : Context} {ch : Challenge} {host : Option String}

/-- The host that a page shows at a time. -/
def hostAt (b : PageBehaviour σ) (page : σ) (now : Nat) : Option String :=
  Url.hostOf? (b.url page now)

/-! ### Looks -/

theorem run_host (w : World σ) : Page.host.run b w = (hostAt b w.page w.now, w) := rfl

/-- One look: at the host, then at the clock; the next looks follow after the interval. -/
theorem run_awaitLeaving_look (timeout interval deadline fuel : Nat) (w : World σ) :
    (awaitLeaving ctx host timeout interval deadline (fuel + 1)).run.run b w =
      if hostAt b w.page w.now ≠ host then (.ok (), w)
      else if deadline ≤ w.now then (.error (pushTimeout ctx timeout), w)
      else (awaitLeaving ctx host timeout interval deadline fuel).run.run b (w.advance interval) := by
  rw [awaitLeaving, Attempt.run_of_bind, Plan.run_bind, run_host]
  dsimp only
  split
  · rfl
  · rw [Attempt.run_of_bind, Plan.run_bind]
    change Plan.run b (ExceptT.run (if w.now ≥ deadline then _ else _)) w = _
    split
    · rfl
    · rfl

/-- Looks that see the old host before the time is over lead to the next one. -/
theorem run_awaitLeaving {timeout interval deadline : Nat} (k : Nat) {fuel : Nat} {w : World σ}
    (hhost : ∀ j < k, hostAt b w.page (w.now + j * interval) = host)
    (htime : ∀ j < k, w.now + j * interval < deadline) :
    (awaitLeaving ctx host timeout interval deadline (fuel + k)).run.run b w =
      (awaitLeaving ctx host timeout interval deadline fuel).run.run b (w.advance (k * interval)) := by
  induction k generalizing w with
  | zero => rw [Nat.zero_mul]; rfl
  | succ k ih =>
      have hfirst := hhost 0 (Nat.succ_pos k)
      have hearly := htime 0 (Nat.succ_pos k)
      rw [Nat.zero_mul, Nat.add_zero] at hfirst hearly
      have hlater : ∀ j, w.now + (j + 1) * interval = (w.advance interval).now + j * interval := by
        intro j
        have hnow : (w.advance interval).now = w.now + interval := rfl
        rw [hnow, Nat.succ_mul]
        omega
      have hadvance : (w.advance interval).advance (k * interval) = w.advance ((k + 1) * interval) := by
        simp only [World.advance, Nat.succ_mul, Nat.add_assoc, Nat.add_comm interval]
      rw [← Nat.add_assoc, run_awaitLeaving_look, if_neg (fun h => h hfirst), if_neg (Nat.not_le.mpr hearly), ih]
      · rw [hadvance]
      · intro j hj
        rw [← hlater]
        exact hhost (j + 1) (Nat.succ_lt_succ hj)
      · intro j hj
        rw [← hlater]
        exact htime (j + 1) (Nat.succ_lt_succ hj)

/-! ### The whole wait -/

/-- Milliseconds between two looks. -/
def lookInterval (ctx : Context) : Nat :=
  max ctx.probe.interval 1

/-- The number of the look that ends the wait at the latest. -/
def lastLook (ctx : Context) (timeout : Nat) : Nat :=
  (timeout + lookInterval ctx - 1) / lookInterval ctx

theorem lookInterval_pos (ctx : Context) : 0 < lookInterval ctx :=
  Nat.lt_of_lt_of_le Nat.zero_lt_one (Nat.le_max_right _ _)

theorem lastLook_spec (ctx : Context) (timeout : Nat) :
    timeout ≤ lastLook ctx timeout * lookInterval ctx ∧
      lastLook ctx timeout * lookInterval ctx < timeout + lookInterval ctx := by
  have hpos := lookInterval_pos ctx
  have hdiv := Nat.div_add_mod (timeout + lookInterval ctx - 1) (lookInterval ctx)
  have hmod := Nat.mod_lt (timeout + lookInterval ctx - 1) hpos
  rw [Nat.mul_comm] at hdiv
  change lastLook ctx timeout * lookInterval ctx + _ = _ at hdiv
  omega

theorem before_lastLook {timeout j : Nat} (h : j < lastLook ctx timeout) : j * lookInterval ctx < timeout := by
  have hlast := (lastLook_spec ctx timeout).2
  have hnext : (j + 1) * lookInterval ctx ≤ lastLook ctx timeout * lookInterval ctx :=
    Nat.mul_le_mul_right _ h
  rw [Nat.succ_mul] at hnext
  omega

theorem lastLook_le (ctx : Context) (timeout : Nat) : lastLook ctx timeout ≤ timeout := by
  refine Nat.le_of_not_lt fun hmany => ?_
  have hearly := before_lastLook hmany
  have hlate := Nat.le_mul_of_pos_right timeout (lookInterval_pos ctx)
  omega

theorem lastLook_of_dvd {timeout : Nat} (h : lookInterval ctx ∣ timeout) :
    lastLook ctx timeout * lookInterval ctx = timeout := by
  obtain ⟨n, hn⟩ := h
  obtain ⟨hle, hlt⟩ := lastLook_spec ctx timeout
  rw [Nat.mul_comm] at hn
  have hupper : lastLook ctx timeout < n + 1 := by
    refine Nat.lt_of_mul_lt_mul_right (a := lookInterval ctx) ?_
    rw [Nat.succ_mul]
    omega
  have hlower : n ≤ lastLook ctx timeout := by
    refine Nat.le_of_mul_le_mul_right (c := lookInterval ctx) ?_ (lookInterval_pos ctx)
    omega
  have hcount : lastLook ctx timeout = n := by omega
  rw [hcount, ← hn]

/-- The world in which the first look is made: the wait has been announced in the log. -/
def announced (ctx : Context) (ch : Challenge) (w : World σ) : World σ :=
  { w with
    logs := ⟨.info, ctx.logger.component, "waiting up to " ++ toString ch.mfa.pushTimeoutMs
      ++ "ms for push approval for role '" ++ ctx.role ++ "'"⟩ :: w.logs }

theorem run_awaitPush (ctx : Context) (ch : Challenge) (host : Option String) (w : World σ) :
    (awaitPush ctx ch host).run.run b w =
      (awaitLeaving ctx host ch.mfa.pushTimeoutMs (lookInterval ctx) (w.now + ch.mfa.pushTimeoutMs)
        (ch.mfa.pushTimeoutMs + 2)).run.run b (announced ctx ch w) := by
  rw [awaitPush, Attempt.run_of_bind, Plan.run_bind, Attempt.run_of_bind, Plan.run_bind]
  rfl

section

variable {w : World σ}

theorem exists_run_awaitPush {k : Nat} (hk : k ≤ lastLook ctx ch.mfa.pushTimeoutMs)
    (hstays : ∀ j < k, hostAt b w.page (w.now + j * lookInterval ctx) = host) :
    ∃ fuel, (awaitPush ctx ch host).run.run b w =
      (awaitLeaving ctx host ch.mfa.pushTimeoutMs (lookInterval ctx) (w.now + ch.mfa.pushTimeoutMs)
        (fuel + 1)).run.run b ((announced ctx ch w).advance (k * lookInterval ctx)) := by
  have hlast := lastLook_le ctx ch.mfa.pushTimeoutMs
  refine ⟨ch.mfa.pushTimeoutMs + 1 - k, ?_⟩
  have hfuel : ch.mfa.pushTimeoutMs + 2 = ch.mfa.pushTimeoutMs + 1 - k + 1 + k := by omega
  have htime : ∀ j < k, w.now + j * lookInterval ctx < w.now + ch.mfa.pushTimeoutMs := by
    intro j hj
    have := before_lastLook (Nat.lt_of_lt_of_le hj hk)
    omega
  rw [run_awaitPush, hfuel]
  exact run_awaitLeaving k hstays htime

variable (ch) in
/-- The first look that sees another host ends the wait. -/
theorem run_awaitPush_of_leaves {k : Nat}
    (hk : IsLeast {k | hostAt b w.page (w.now + k * lookInterval ctx) ≠ host} k)
    (hlast : k ≤ lastLook ctx ch.mfa.pushTimeoutMs) :
    (awaitPush ctx ch host).run.run b w = (.ok (), (announced ctx ch w).advance (k * lookInterval ctx)) := by
  have hstays : ∀ j < k, hostAt b w.page (w.now + j * lookInterval ctx) = host := by
    intro j hj
    by_cases hj' : hostAt b w.page (w.now + j * lookInterval ctx) = host
    · exact hj'
    · exact absurd (hk.2 hj') (Nat.not_le.mpr hj)
  obtain ⟨fuel, hrun⟩ := exists_run_awaitPush hlast hstays
  rw [hrun, run_awaitLeaving_look]
  exact if_pos hk.1

variable (ch) in
/-- If no look up to the last one sees another host, the wait fails behind that look. -/
theorem run_awaitPush_of_stays
    (hstays : ∀ k ≤ lastLook ctx ch.mfa.pushTimeoutMs, hostAt b w.page (w.now + k * lookInterval ctx) = host) :
    (awaitPush ctx ch host).run.run b w =
      (.error (pushTimeout ctx ch.mfa.pushTimeoutMs),
        (announced ctx ch w).advance (lastLook ctx ch.mfa.pushTimeoutMs * lookInterval ctx)) := by
  have hover : w.now + ch.mfa.pushTimeoutMs ≤ w.now + lastLook ctx ch.mfa.pushTimeoutMs * lookInterval ctx :=
    Nat.add_le_add_left (lastLook_spec ctx _).1 _
  obtain ⟨fuel, hrun⟩ := exists_run_awaitPush (Nat.le_refl _) fun j hj => hstays j (Nat.le_of_lt hj)
  rw [hrun, run_awaitLeaving_look]
  exact (if_neg fun h => h (hstays _ (Nat.le_refl _))).trans (if_pos hover)

theorem leaves_or_stays (b : PageBehaviour σ) (ctx : Context) (ch : Challenge) (host : Option String)
    (w : World σ) :
    (∃ k ≤ lastLook ctx ch.mfa.pushTimeoutMs,
        IsLeast {k | hostAt b w.page (w.now + k * lookInterval ctx) ≠ host} k) ∨
      ∀ k ≤ lastLook ctx ch.mfa.pushTimeoutMs, hostAt b w.page (w.now + k * lookInterval ctx) = host := by
  rcases exists_isLeast_or_forall_not (fun k => hostAt b w.page (w.now + k * lookInterval ctx) ≠ host)
    (lastLook ctx ch.mfa.pushTimeoutMs) with hleaves | hstays
  · exact .inl hleaves
  · exact .inr fun k hk => Classical.not_not.mp (hstays k hk)

end

/-- **The wait for a push goes by looks.**  The page is looked at every interval.  The wait succeeds at the first
look that sees another host, if that is no look behind the last one, and else fails behind the last look; the page
is left as it is.  The last look is the first one that is not before the time is over: it comes less than one
interval behind that time, and right at that time if the intervals fit into it. -/
theorem awaitPush_looks (b : PageBehaviour σ) (ctx : Context) (ch : Challenge) (host : Option String)
    (w : World σ) :
    let timeout := ch.mfa.pushTimeoutMs
    let interval := max ctx.probe.interval 1
    let last := (timeout + interval - 1) / interval
    let leaves (k : Nat) : Prop := Url.hostOf? (b.url w.page (w.now + k * interval)) ≠ host
    let ran := (awaitPush ctx ch host).run.run b w
    (timeout ≤ last * interval ∧ last * interval < timeout + interval) ∧
      (interval ∣ timeout → last * interval = timeout) ∧
      (∀ k ≤ last, IsLeast {k | leaves k} k → ran.1 = .ok () ∧ ran.2.now = w.now + k * interval) ∧
      ((∀ k ≤ last, ¬ leaves k) → ran.1 = .error (pushTimeout ctx timeout) ∧
        ran.2.now = w.now + last * interval) ∧
      ran.2.now ≤ w.now + last * interval ∧ ran.2.page = w.page := by
  intro timeout interval last leaves ran
  have hends : ran.2.now ≤ w.now + last * interval ∧ ran.2.page = w.page := by
    rcases leaves_or_stays b ctx ch host w with ⟨k, hk, hleast⟩ | hstays
    · have hran : ran = _ := run_awaitPush_of_leaves ch hleast hk
      rw [hran]
      exact ⟨Nat.add_le_add_left (Nat.mul_le_mul_right _ hk) _, rfl⟩
    · have hran : ran = _ := run_awaitPush_of_stays ch hstays
      rw [hran]
      exact ⟨Nat.le_refl _, rfl⟩
  refine ⟨lastLook_spec ctx timeout, lastLook_of_dvd, fun k hk hleast => ?_, fun hstays => ?_, hends⟩
  · have hran : ran = _ := run_awaitPush_of_leaves ch hleast hk
    rw [hran]
    exact ⟨rfl, rfl⟩
  · have hran : ran = _ := run_awaitPush_of_stays ch fun k hk => Classical.not_not.mp (hstays k hk)
    rw [hran]
    exact ⟨rfl, rfl⟩

/-- A page that shows no elements, and goes from the provider to the application after so many milliseconds. -/
def partingAfter (ms : Nat) : PageBehaviour Unit where
  url _ now := if now < ms then "https://dev-1.okta.com/signin" else "https://app.example/home"
  respond c _ _ :=
    { duration := 0
      outcome := match c with
        | .isVisible _ => .ok false
        | .inputValue _ => .ok ""
        | .textContent _ => .ok none
        | .evaluate _ => .ok .null
        | .storageState => .ok {}
        | .goto .. | .waitForUrl .. | .waitForSelector .. | .waitForLoadState .. | .fill .. | .click _
        | .reload _ | .clearCookies => .ok ()
      page := ()
      abandoned := fun _ => () }

theorem hostAt_partingAfter (ms t : Nat) :
    hostAt (partingAfter ms) () t = if t < ms then some "dev-1.okta.com" else some "app.example" := by
  have hbefore : Url.hostOf? "https://dev-1.okta.com/signin" = some "dev-1.okta.com" := by decide +kernel
  have hbehind : Url.hostOf? "https://app.example/home" = some "app.example" := by decide +kernel
  simp only [hostAt, partingAfter]
  split
  · exact hbefore
  · exact hbehind

/-- Looks that are 200 milliseconds apart. -/
def farApart : Context where
  role := "admin"
  fieldTimeout := 0
  settle := 0
  probe := { timeout := 0, interval := 200 }
  totp := {}
  logger := .standard

/-- A push that may be waited for so long. -/
def pushWithin (ms : Nat) : Challenge :=
  ⟨{ kind := .push, pushTimeout := some ms }, none⟩

/-- The wait for a push on a page that leaves after 350 milliseconds. -/
def partingRun (ms : Nat) : Except AuthError Unit × World Unit :=
  (awaitPush farApart (pushWithin ms) (some "dev-1.okta.com")).run.run (partingAfter 350) { page := () }

theorem isLeast_partingAfter :
    IsLeast {k | hostAt (partingAfter 350) () (0 + k * lookInterval farApart) ≠ some "dev-1.okta.com"} 2 := by
  have hinterval : lookInterval farApart = 200 := rfl
  constructor
  · rw [Set.mem_ofPred_eq, hostAt_partingAfter, hinterval]
    decide
  · intro k hk
    rw [Set.mem_ofPred_eq, hostAt_partingAfter, hinterval] at hk
    refine Nat.le_of_not_lt fun hlt => hk (if_pos ?_)
    omega

/-- That look is in time if there are 400 milliseconds. -/
theorem awaitPush_looks_parting : (partingRun 400).1 = .ok () ∧ (partingRun 400).2.now = 400 := by
  obtain ⟨-, -, hleaves, -⟩ :=
    awaitPush_looks (partingAfter 350) farApart (pushWithin 400) (some "dev-1.okta.com") { page := () }
  obtain ⟨hok, hnow⟩ := hleaves 2 (by decide) isLeast_partingAfter
  unfold partingRun
  rw [hok, hnow]
  decide

/-- With 300 milliseconds that look comes behind the time, and so does the approval that it sees. -/
theorem awaitPush_accepts_late :
    (∀ t ≤ 300, Url.hostOf? ((partingAfter 350).url () t) = some "dev-1.okta.com") ∧ (partingRun 300).1 = .ok () ∧
      300 < (partingRun 300).2.now := by
  refine ⟨fun t ht => ?_, ?_⟩
  · exact (hostAt_partingAfter 350 t).trans (if_pos (by omega))
  · unfold partingRun
    rw [run_awaitPush_of_leaves (w := { page := () }) (pushWithin 300) isLeast_partingAfter (by decide)]
    exact ⟨rfl, by decide⟩

end SignOn.Idp
