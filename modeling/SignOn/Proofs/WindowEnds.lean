import Mathlib.Order.Bounds.Defs
import SignOn.Proofs.FlowOrder
import SignOn.Proofs.OneTimeCodes
import SignOn.Proofs.Preflight

/-! # How long the present window lasts

* **Windows.**  `Totp.EndsIn` says what is left of a window at some time: up to there the window stays the same, and
  then the next one begins.  It is the length less the remainder (`endsIn_sub_mod`), in seconds and in milliseconds
  alike; the seconds are the milliseconds rounded up (`isLeast_secondsLeft`).
* **Codes.**  A code stays as long as its window (`codeAt_of_endsIn`).
* **The command line.**  `Command.KeyOf` is the secret of a role as the settings name it and an environment holds
  it.  The action prints a code exactly if there is one (`Command.run_totp`, `Command.keyOf_of_run_totp`).
* `Totp.windows_end` puts these together. -/

namespace SignOn

namespace Totp

/-! ### What is left of a window -/

/-- At time `t` the present window of some length ends in `left`. -/
structure EndsIn (length t left : Nat) : Prop where
  pos : 1 ≤ left
  le : left ≤ length
  same : ∀ k < left, (t + k) / length = t / length
  next : (t + left) / length = t / length + 1

theorem endsIn_sub_mod {length : Nat} (hlength : 1 ≤ length) (t : Nat) : EndsIn length t (length - t % length) := by
  have hmod : t % length < length := Nat.mod_lt t hlength
  have hstart : t / length * length ≤ t := Nat.div_mul_le_self t length
  have hnext : t + (length - t % length) = (t / length + 1) * length :=
    (add_sub_mod hlength t).trans (Nat.mul_comm _ _)
  refine ⟨by omega, by omega, fun k hk => ?_, ?_⟩
  · apply Nat.div_eq_of_lt_le
    · omega
    · omega
  · rw [hnext, Nat.mul_div_cancel _ hlength]

theorem endsIn_secondsLeft (t step : Nat) : EndsIn (max step 1) t (secondsLeft t step) :=
  endsIn_sub_mod (Nat.le_max_right step 1) t

section

variable {step : Nat} (hfits : step * 1000 < UInt64.size)
include hfits

theorem millisLeft_eq (m : Nat) : millisLeft m step = max step 1 * 1000 - m % (max step 1 * 1000) := by
  have hlong : max step 1 * 1000 ≤ maxNat64 := by
    have hsize : UInt64.size = maxNat64 + 1 := rfl
    have hone : 1000 ≤ maxNat64 := by decide
    omega
  rw [millisLeft, Nat.min_eq_left hlong]

theorem endsIn_millisLeft (m : Nat) : EndsIn (max step 1 * 1000) m (millisLeft m step) := by
  rw [millisLeft_eq hfits]
  exact endsIn_sub_mod (by omega) m

/-- The seconds that are left are the milliseconds that are left, rounded up. -/
theorem isLeast_secondsLeft (m : Nat) : IsLeast {n | millisLeft m step ≤ n * 1000} (secondsLeft (m / 1000) step) := by
  have hlength : 1 ≤ max step 1 := Nat.le_max_right step 1
  have hmod : m / 1000 % max step 1 < max step 1 := Nat.mod_lt _ hlength
  have hsplit : m % (max step 1 * 1000) = m % 1000 + 1000 * (m / 1000 % max step 1) := by
    rw [Nat.mul_comm, Nat.mod_mul]
  rw [millisLeft_eq hfits, hsplit, secondsLeft]
  refine ⟨?_, fun n hn => ?_⟩
  · show max step 1 * 1000 - _ ≤ (max step 1 - _) * 1000
    omega
  · change max step 1 * 1000 - _ ≤ n * 1000 at hn
    omega

end

/-! ### Codes -/

theorem exists_key_of_codeAt {step t : Nat} {secret code : String} (h : codeAt step secret t = .ok code) :
    ∃ key, secretBytes secret = .ok key := by
  rw [codeAt] at h
  cases hkey : secretBytes secret with
  | error e =>
      rw [hkey] at h
      cases h
  | ok key => exact ⟨key, rfl⟩

/-- A code is the present one up to the end of its window; then it is that of the next window. -/
theorem codeAt_of_endsIn {step t left : Nat} (h : EndsIn step t left) {secret : String} {key : List UInt8}
    (hkey : secretBytes secret = .ok key) :
    (∀ k < left, codeAt step secret (t + k) = .ok (windowCode key (t / step))) ∧
      codeAt step secret (t + left) = .ok (windowCode key (t / step + 1)) := by
  constructor
  · intro k hk
    rw [codeAt_of_secretBytes hkey, h.same k hk]
  · rw [codeAt_of_secretBytes hkey, h.next]

end Totp

/-! ### The command line -/

namespace Command

variable {σ : Type} {b : PageBehaviour σ} {s : Settings} {role : String} {w : World σ}

/-- The secret of the one-time codes of a role, and the bytes that it stands for. -/
structure KeyOf (s : Settings) (env : String → Option String) (role secret : String) (key : List UInt8) : Prop where
  known : ∃ r, s.role role = .ok r
  held : ∃ o envVar, s.oidcFor role = some o ∧ o.mfa.secretVar = some envVar ∧
    Credentials.given env envVar = some secret
  spelled : Totp.secretBytes secret = .ok key

/-- The line with a code, and with the seconds for which it lasts. -/
def codeLine (code : String) (left : Nat) : String :=
  code ++ " (valid for " ++ toString left ++ "s)"

/-- Print the current code of the secret in a variable. -/
def printCode (envVar : String) : Job Unit := do
  let engine : Totp.Engine := {}
  let secret ← Job.try_ .mfa (Totp.secretFromEnv envVar)
  let code ← Job.try_ .mfa (engine.generate secret)
  let left ← Job.of engine.secondsLeft
  say (codeLine code left)

theorem totp_eq {r : RoleSettings} (hr : s.role role = .ok r) {o : OidcSettings} (ho : s.oidcFor role = some o)
    {envVar : String} (hvar : o.mfa.secretVar = some envVar) : totp s role = printCode envVar := by
  unfold totp
  rw [hr, ho]
  dsimp only
  rw [hvar]
  rfl

theorem run_try_bind {ε α β : Type} (f : ε → Failure) (p : Plan (Except ε α)) (g : α → Job β) :
    (Job.try_ f p >>= g).run.run b w =
      match (p.run b w).1 with
      | .ok a => (g a).run.run b (p.run b w).2
      | .error e => (.error (f e), (p.run b w).2) := by
  change ((p.bind _).bind _).run b w = _
  rw [Plan.bind_assoc, Plan.run_bind]
  cases (p.run b w).1 <;> rfl

theorem run_secretFromEnv (envVar : String) :
    (Totp.secretFromEnv envVar).run b w =
      (match Credentials.given w.environment envVar with
        | some secret => .ok secret
        | none => .error (.secretMissing envVar), w) := by
  rw [Totp.secretFromEnv, Plan.bind_eq, Plan.run_bind, Credentials.run_nonBlankEnv, ← Credentials.given]
  cases Credentials.given w.environment envVar <;> rfl

theorem run_totp {secret : String} {key : List UInt8} (h : KeyOf s w.environment role secret key) {ms : Nat}
    (hms : w.wall = ms) :
    (totp s role).run.run b w = (.ok (), { w with
      printed := codeLine (Totp.windowCode key (ms / 1000 / 30)) (Totp.secondsLeft (ms / 1000) 30) :: w.printed }) := by
  obtain ⟨⟨r, hr⟩, ⟨o, envVar, ho, hvar, hgiven⟩, hkey⟩ := h
  have hsecret : (Totp.secretFromEnv envVar).run b w = (.ok secret, w) := by
    rw [run_secretFromEnv, hgiven]
  have hcode : (({} : Totp.Engine).generate secret).run b w = (.ok (Totp.windowCode key (ms / 1000 / 30)), w) := by
    rw [Totp.Engine.run_generate b _ hms]
    exact congrArg (·, w) (Totp.codeAt_of_secretBytes hkey _)
  have hleft : ({} : Totp.Engine).secondsLeft.run b w = (Totp.secondsLeft (ms / 1000) 30, w) :=
    Totp.Engine.run_secondsLeft b _ hms
  rw [totp_eq hr ho hvar, printCode, run_try_bind, hsecret]
  dsimp only
  rw [run_try_bind, hcode]
  dsimp only
  change (Plan.bind (Plan.bind _ _) _).run b w = _
  rw [Plan.bind_assoc, Plan.run_bind_of_eq b hleft]
  rfl

theorem exists_secretVar_of_run_totp (h : ((totp s role).run.run b w).1 = .ok ()) :
    ∃ r o envVar, s.role role = .ok r ∧ s.oidcFor role = some o ∧ o.mfa.secretVar = some envVar := by
  unfold totp at h
  cases hr : s.role role with
  | error e =>
      rw [hr] at h
      cases h
  | ok r =>
      rw [hr] at h
      cases ho : s.oidcFor role with
      | none =>
          rw [ho] at h
          cases h
      | some o =>
          rw [ho] at h
          dsimp only at h
          cases hvar : o.mfa.secretVar with
          | none =>
              rw [hvar] at h
              cases h
          | some envVar => exact ⟨r, o, envVar, rfl, rfl, hvar⟩

/-- A code is only printed with a secret, and not before 1970. -/
theorem keyOf_of_run_totp (h : ((totp s role).run.run b w).1 = .ok ()) :
    0 ≤ w.wall ∧ ∃ secret key, KeyOf s w.environment role secret key := by
  obtain ⟨r, o, envVar, hr, ho, hvar⟩ := exists_secretVar_of_run_totp h
  rw [totp_eq hr ho hvar, printCode, run_try_bind, run_secretFromEnv] at h
  cases hgiven : Credentials.given w.environment envVar with
  | none =>
      rw [hgiven] at h
      cases h
  | some secret =>
      rw [hgiven] at h
      dsimp only at h
      rw [run_try_bind] at h
      cases hcode : ((({} : Totp.Engine).generate secret).run b w).1 with
      | error e =>
          rw [hcode] at h
          cases h
      | ok code =>
          rw [← Plan.bind_done (Totp.Engine.generate _ secret), Totp.Engine.generate_bind, Plan.run_wallClock] at hcode
          obtain ⟨hwall, hcode⟩ := Totp.Engine.isCode_of_codeOf hcode
          obtain ⟨key, hkey⟩ := Totp.exists_key_of_codeAt hcode
          exact ⟨hwall, secret, key, ⟨r, hr⟩, ⟨o, envVar, ho, hvar, hgiven⟩, hkey⟩

end Command

/-- **When the present window ends.**  In windows of a number of seconds, at least one, the seconds that are left are
the time up to the end of the window: it lasts for just as long, and then the next one begins.  So do the
milliseconds, and the seconds are the milliseconds rounded up.  The action of the command line succeeds exactly if
there is a secret and the clock shows a time since 1970; the code that it prints is the present one for as long as
the line says, and then it is the turn of the code of the next window. -/
theorem Totp.windows_end :
    (∀ step, step * 1000 < UInt64.size →
      (∀ t, EndsIn (max step 1) t (secondsLeft t step)) ∧
      (∀ m, EndsIn (max step 1 * 1000) m (millisLeft m step)) ∧
      (∀ m, IsLeast {n | millisLeft m step ≤ n * 1000} (secondsLeft (m / 1000) step)) ∧
      ∀ t secret key, secretBytes secret = .ok key →
        (∀ k < secondsLeft t step,
          codeAt (max step 1) secret (t + k) = .ok (windowCode key (t / max step 1))) ∧
        codeAt (max step 1) secret (t + secondsLeft t step) = .ok (windowCode key (t / max step 1 + 1))) ∧
    ∀ {σ : Type} (b : PageBehaviour σ) (w : World σ) (s : Settings) (role : String),
      let ran := (Command.totp s role).run.run b w
      (ran.1 = .ok () ↔ 0 ≤ w.wall ∧ ∃ secret key, Command.KeyOf s w.environment role secret key) ∧
      ∀ secret key (ms : Nat), Command.KeyOf s w.environment role secret key → w.wall = ms →
        let left := secondsLeft (ms / 1000) 30
        ∃ code, ran.2.printed = Command.codeLine code left :: w.printed ∧
          (∀ k < left, codeAt 30 secret (ms / 1000 + k) = .ok code) ∧
          codeAt 30 secret (ms / 1000 + left) = .ok (windowCode key (ms / 1000 / 30 + 1)) := by
  constructor
  · intro step hfits
    refine ⟨fun t => endsIn_secondsLeft t step, endsIn_millisLeft hfits, isLeast_secondsLeft hfits, ?_⟩
    intro t secret key hkey
    exact codeAt_of_endsIn (endsIn_secondsLeft t step) hkey
  · intro σ b w s role ran
    refine ⟨⟨Command.keyOf_of_run_totp, ?_⟩, ?_⟩
    · rintro ⟨hwall, secret, key, hkey⟩
      obtain ⟨ms, hms⟩ := Int.eq_ofNat_of_zero_le hwall
      exact congrArg Prod.fst (Command.run_totp hkey hms)
    · intro secret key ms hkey hms left
      obtain ⟨hsame, hnext⟩ := codeAt_of_endsIn (endsIn_secondsLeft (ms / 1000) 30) hkey.spelled
      refine ⟨_, ?_, hsame, hnext⟩
      exact congrArg (fun r => r.2.printed) (Command.run_totp hkey hms)

/-- Settings in which one role has one-time codes. -/
def codedSettings : Settings :=
  { roles := [("admin",
      { credentials := ⟨"U", "P"⟩
        overrides := some { mfa := some { kind := .totp, secretVar := some "CODES" } } })]
    oidc := some { loginUrl := "https://app/login" } }

/-- A world with its secret, three quarters of a second before a window ends. -/
def codedWorld : World Unit :=
  { page := ()
    epoch := 59250
    environment := fun name => if name = "CODES" then some "MZXW6" else none }

/-- Five seconds into a window of a minute there are fifty-five left; and a code that is printed in the last second of
its window is printed with one second. -/
theorem Totp.windows_end_codedWorld :
    (60 * 1000 < UInt64.size ∧ codedWorld.wall = (59250 : Nat) ∧
        Command.KeyOf codedSettings codedWorld.environment "admin" "MZXW6" [102, 111, 111]) ∧
      EndsIn 60 65 55 ∧ millisLeft 65250 60 = 54750 ∧ IsLeast {n | 54750 ≤ n * 1000} 55 ∧
      let ran := (Command.totp codedSettings "admin").run.run Flow.smoothPage codedWorld
      ran.1 = .ok () ∧ ran.2.printed = ["398408 (valid for 1s)"] ∧
        codeAt 30 "MZXW6" 60 = .ok (windowCode [102, 111, 111] 2) := by
  have hbytes : secretBytes "MZXW6" = .ok [102, 111, 111] := secretBytes_of_decode? (by decide +kernel) (by decide)
  have hkey : Command.KeyOf codedSettings codedWorld.environment "admin" "MZXW6" [102, 111, 111] :=
    ⟨⟨_, rfl⟩, ⟨_, "CODES", rfl, rfl, by decide⟩, hbytes⟩
  have hcode : codeAt 30 "MZXW6" 59 = .ok "398408" := by
    rw [codeAt_of_secretBytes hbytes]
    exact congrArg Except.ok (by decide +kernel)
  obtain ⟨hwindows, hprints⟩ := windows_end
  obtain ⟨hends, -, hceil, -⟩ := hwindows 60 (by decide)
  obtain ⟨hok, hcodes⟩ := hprints Flow.smoothPage codedWorld codedSettings "admin"
  obtain ⟨code, hprinted, hsame, hnext⟩ := hcodes "MZXW6" _ 59250 hkey rfl
  obtain rfl : code = "398408" := Except.ok.inj ((hsame 0 (by decide)).symm.trans hcode)
  exact ⟨⟨by decide, rfl, hkey⟩, hends 65, by decide, hceil 65250, hok.mpr ⟨by decide, _, _, hkey⟩, hprinted, hnext⟩

end SignOn
