import SignOn.Proofs.Probes
import SignOn.Totp.Engine

/-! # Which one-time codes are made and accepted

* **Windows.**  The time up to the end of a window leads to the next multiple of its length (`add_sub_mod`).
* **Codes.**  A code has six digits (`length_windowCode`, `isDigit_of_mem_windowCode`), and the one of a time is the
  one at the start of its window (`codeAt_div_mul`).
* **Acceptance.**  `accepts_iff` says which codes are accepted: those of the present window and of its two neighbours.
* **Spellings.**  `Respelled` puts blanks and padding into a secret and changes the case of its letters.  The bytes of
  the secret stay as they are (`Respelled.secretBytes_eq`). -/

namespace SignOn

/-! ### Padded numbers -/

namespace Text

theorem length_padNat {width n : Nat} (h : (toString n).length ≤ width) : (padNat width n).length = width := by
  rw [padNat, String.length_append, String.length_ofList, List.length_replicate]
  omega

theorem isDigit_of_mem_padNat {width n : Nat} {c : Char} (hc : c ∈ (padNat width n).toList) : c.isDigit = true := by
  rw [padNat, String.toList_append, String.toList_ofList, List.mem_append, Nat.toString_eq_repr, Nat.toList_repr] at hc
  rcases hc with hzero | hdigit
  · rw [List.eq_of_mem_replicate hzero]
    decide
  · exact Nat.isDigit_of_mem_toDigits (by decide) (by decide) hdigit

end Text

namespace Totp

/-! ### Windows -/

/-- What is left of a window leads to the start of the next one. -/
theorem add_sub_mod {length : Nat} (hlength : 0 < length) (t : Nat) :
    t + (length - t % length) = length * (t / length + 1) := by
  have hmod : t % length < length := Nat.mod_lt t hlength
  have hdiv := Nat.div_add_mod t length
  rw [Nat.mul_succ]
  omega

theorem sinceEpoch_natCast (ms : Nat) : sinceEpoch (ms : Int) = .ok ms := by
  rw [sinceEpoch, if_neg (by omega), Int.toNat_natCast]

/-! ### Codes of windows -/

section

variable (key : List UInt8) (window : Nat)

theorem length_windowCode : (windowCode key window).length = 6 :=
  Text.length_padNat ((Nat.length_repr_le_iff (by decide)).mpr (Nat.mod_lt _ (by decide)))

theorem isDigit_of_mem_windowCode {c : Char} (hc : c ∈ (windowCode key window).toList) : c.isDigit = true :=
  Text.isDigit_of_mem_padNat hc

end

section

variable {step : Nat} {secret : String} {key : List UInt8}

theorem secretBytes_of_decode? (h : Base32.decode? (normalizeSecret secret) = some key) (hkey : key ≠ []) :
    secretBytes secret = .ok key := by
  delta secretBytes
  rw [h]
  cases key with
  | nil => exact absurd rfl hkey
  | cons _ _ => rfl

theorem codeAt_of_secretBytes (hkey : secretBytes secret = .ok key) (seconds : Nat) :
    codeAt step secret seconds = .ok (windowCode key (seconds / step)) := by
  rw [codeAt, hkey]
  rfl

/-- The code of a time is the code at the start of its window. -/
theorem codeAt_div_mul (hstep : 1 ≤ step) (secret : String) (seconds : Nat) :
    codeAt step secret (seconds / step * step) = codeAt step secret seconds := by
  rw [codeAt, Nat.mul_div_cancel _ hstep, codeAt]

theorem accepts_of_secretBytes (hkey : secretBytes secret = .ok key) (code : String) (seconds : Nat) :
    accepts step secret code seconds =
      (List.range 3).any fun i => windowCode key (seconds / step - 1 + i) == Text.trim code := by
  delta accepts
  rw [hkey]
  rfl

/-- Behind the first window, the codes of three windows are accepted. -/
theorem accepts_iff (hkey : secretBytes secret = .ok key) (hstep : 1 ≤ step) {seconds : Nat}
    (hfirst : step ≤ seconds) (code : String) :
    accepts step secret code seconds = true ↔
      ∃ n, seconds / step ≤ n + 1 ∧ n ≤ seconds / step + 1 ∧ windowCode key n = Text.trim code := by
  have hpos : 1 ≤ seconds / step := Nat.div_pos hfirst hstep
  rw [accepts_of_secretBytes hkey]
  simp only [List.any_eq_true, List.mem_range, beq_iff_eq]
  constructor
  · rintro ⟨i, hi, hcode⟩
    exact ⟨seconds / step - 1 + i, by omega, by omega, hcode⟩
  · rintro ⟨n, hfrom, hto, hcode⟩
    refine ⟨n + 1 - seconds / step, by omega, ?_⟩
    rwa [show seconds / step - 1 + (n + 1 - seconds / step) = n by omega]

end

/-! ### Spellings of a secret -/

/-- What a secret may be filled with: blanks and padding. -/
def IsFiller (c : Char) : Prop :=
  Text.isBlank c = true ∨ c = '='

instance : DecidablePred IsFiller := fun c => inferInstanceAs (Decidable (Text.isBlank c = true ∨ c = '='))

/-- The second text is the first one with more filling, and with letters in another case. -/
inductive Respelled : List Char → List Char → Prop where
  | nil : Respelled [] []
  | letter {c d : Char} {s t : List Char} (hcase : c.toUpper = d.toUpper) (rest : Respelled s t) :
    Respelled (c :: s) (d :: t)
  | filler {c : Char} {s t : List Char} (hc : IsFiller c) (rest : Respelled s t) : Respelled s (c :: t)

theorem toNat_toUpper (c : Char) :
    c.toUpper.toNat = if 97 ≤ c.toNat ∧ c.toNat ≤ 122 then c.toNat - 32 else c.toNat := by
  delta Char.toUpper
  split
  next hlower =>
    have hrange : 97 ≤ c.toNat ∧ c.toNat ≤ 122 := hlower
    rw [if_pos hrange]
    change (c.val + (65 - 97)).toNat = c.val.toNat - 32
    have hval : 97 ≤ c.val.toNat ∧ c.val.toNat ≤ 122 := hrange
    rw [UInt32.toNat_add]
    change (c.val.toNat + 4294967264) % 4294967296 = c.val.toNat - 32
    omega
  next hother => exact (if_neg hother).symm

theorem eq_or_letters_of_toUpper_eq {c d : Char} (h : c.toUpper = d.toUpper) :
    c = d ∨ (65 ≤ c.toNat ∧ c.toNat < 128) ∧ 65 ≤ d.toNat ∧ d.toNat < 128 := by
  have hnat := congrArg Char.toNat h
  rw [toNat_toUpper, toNat_toUpper] at hnat
  by_cases heq : c.toNat = d.toNat
  · exact .inl (Char.toNat_inj.mp heq)
  · right
    split at hnat <;> split at hnat <;> omega

/-- Is a character of a secret kept? -/
def keeps (c : Char) : Bool :=
  !Text.isBlank c && c ≠ '='

theorem normalizeSecret_eq (secret : String) :
    normalizeSecret secret = String.ofList ((secret.toList.filter keeps).flatMap Text.upperChar) := by
  rw [normalizeSecret, Text.upper, String.toList_ofList]
  rfl

theorem keeps_of_isFiller {c : Char} (hc : IsFiller c) : keeps c = false := by
  rcases hc with hblank | rfl
  · rw [keeps, hblank]
    rfl
  · rfl

theorem keeps_of_letter {c : Char} (hc : 65 ≤ c.toNat ∧ c.toNat < 128) : keeps c = true := by
  have hblank : Text.isBlank c = false := by
    simp only [Text.isBlank, Bool.or_eq_false_iff, Bool.and_eq_false_iff, decide_eq_false_iff_not, beq_eq_false_iff_ne]
    omega
  have hpadding : c ≠ '=' := by
    rintro rfl
    exact absurd hc.1 (by decide)
  rw [keeps, hblank, decide_eq_true hpadding]
  rfl

theorem upperChar_of_letter {c : Char} (hc : c.toNat < 128) : Text.upperChar c = [c.toUpper] :=
  if_pos hc

theorem Respelled.flatMap_upperChar {s t : List Char} (h : Respelled s t) :
    (t.filter keeps).flatMap Text.upperChar = (s.filter keeps).flatMap Text.upperChar := by
  induction h with
  | nil => rfl
  | @letter c d s t hcase _ ih =>
      rcases eq_or_letters_of_toUpper_eq hcase with rfl | ⟨hc, hd⟩
      · rw [List.filter_cons, List.filter_cons]
        split
        · rw [List.flatMap_cons, List.flatMap_cons, ih]
        · exact ih
      · rw [List.filter_cons_of_pos (keeps_of_letter hc), List.filter_cons_of_pos (keeps_of_letter hd),
          List.flatMap_cons, List.flatMap_cons, upperChar_of_letter hc.2, upperChar_of_letter hd.2, hcase, ih]
  | filler hc _ ih => rwa [List.filter_cons_of_neg (by rw [keeps_of_isFiller hc]; exact Bool.false_ne_true)]

/-- Two spellings of a secret stand for the same bytes. -/
theorem Respelled.secretBytes_eq {secret other : String} (h : Respelled secret.toList other.toList) :
    secretBytes other = secretBytes secret := by
  delta secretBytes
  rw [normalizeSecret_eq, normalizeSecret_eq, h.flatMap_upperChar]

/-! ### Codes of a secret -/

namespace Engine

section

variable {σ : Type} (b : PageBehaviour σ) (e : Engine) {w : World σ} {ms : Nat} (hms : w.wall = ms)
include hms

theorem run_verify (code secret : String) :
    (e.verify code secret).run b w = (accepts e.step secret code (ms / 1000), w) := by
  rw [verify, Plan.bind_eq, Plan.run_wallClock, hms, sinceEpoch_natCast]
  rfl

theorem run_generate (secret : String) :
    (e.generate secret).run b w = (codeAt e.step secret (ms / 1000), w) := by
  rw [generate, Plan.bind_eq, Plan.run_wallClock, hms, sinceEpoch_natCast]
  rfl

theorem run_secondsLeft : e.secondsLeft.run b w = (Totp.secondsLeft (ms / 1000) e.step, w) := by
  rw [secondsLeft, Plan.bind_eq, Plan.run_wallClock, hms, sinceEpoch_natCast]
  rfl

end

/-- A secret that stands for bytes has a code of six digits for each window, the same one at all of its times.
Behind the first window a code is accepted just if it is, but for blanks around it, the one of the present window or
of a neighbour.  Neither depends on how the secret is spelled. -/
theorem codes_of_secretBytes {e : Engine} (hstep : 1 ≤ e.step) {secret : String} {key : List UInt8}
    (hkey : secretBytes secret = .ok key) :
    (∀ seconds, ∃ code, codeAt e.step secret seconds = .ok code ∧ code.length = 6 ∧
      (∀ c ∈ code.toList, c.isDigit = true) ∧
      ∀ other, other / e.step = seconds / e.step → codeAt e.step secret other = .ok code) ∧
    (∀ {σ : Type} (b : PageBehaviour σ) (w : World σ) (ms : Nat) (code : String), w.wall = ms →
      e.step ≤ ms / 1000 → ms / 1000 + e.step < UInt64.size →
      (((e.verify code secret).run b w).1 = true ↔
        ∃ n, n * e.step < UInt64.size ∧ ms / 1000 / e.step ≤ n + 1 ∧ n ≤ ms / 1000 / e.step + 1 ∧
          codeAt e.step secret (n * e.step) = .ok (Text.trim code))) ∧
    ∀ other, Respelled secret.toList other.toList →
      (∀ seconds, codeAt e.step other seconds = codeAt e.step secret seconds) ∧
      ∀ code, e.verify code other = e.verify code secret := by
  refine ⟨fun seconds => ?_, fun b w ms code hms hfirst hfits => ?_, fun other hother => ?_⟩
  · refine ⟨windowCode key (seconds / e.step), codeAt_of_secretBytes hkey seconds, length_windowCode _ _,
      fun c hc => isDigit_of_mem_windowCode _ _ hc, fun other hsame => ?_⟩
    rw [codeAt_of_secretBytes hkey, hsame]
  · rw [run_verify b e hms, accepts_iff hkey hstep hfirst]
    refine exists_congr fun n => ⟨?_, ?_⟩
    · rintro ⟨hfrom, hto, hcode⟩
      have hstart : ms / 1000 / e.step * e.step ≤ ms / 1000 := Nat.div_mul_le_self _ _
      have hnext : n * e.step ≤ (ms / 1000 / e.step + 1) * e.step := Nat.mul_le_mul_right _ hto
      rw [Nat.succ_mul] at hnext
      refine ⟨by omega, hfrom, hto, ?_⟩
      rw [codeAt_of_secretBytes hkey, Nat.mul_div_cancel _ hstep, hcode]
    · rintro ⟨-, hfrom, hto, hcode⟩
      rw [codeAt_of_secretBytes hkey, Nat.mul_div_cancel _ hstep] at hcode
      exact ⟨hfrom, hto, Except.ok.inj hcode⟩
  · have hbytes := hother.secretBytes_eq
    refine ⟨fun seconds => by rw [codeAt, hbytes, codeAt], fun code => ?_⟩
    rw [verify, verify]
    refine congrArg (Plan.bind _) (funext fun wall => ?_)
    cases sinceEpoch wall with
    | error _ => rfl
    | ok ms =>
        delta accepts
        rw [hbytes]

/-- The code of a window is still accepted in the next one, with a blank behind it and for another spelling of its
secret. -/
theorem codes_of_secretBytes_foo :
    (1 ≤ ({} : Engine).step ∧ secretBytes "MZXW6" = .ok [102, 111, 111] ∧
        Respelled "MZXW6".toList "mz xW6==".toList) ∧
      codeAt 30 "mz xW6==" 59 = .ok "398408" ∧
      ((({} : Engine).verify "398408 " "mz xW6==").run (Page.appearingAt 0) { page := (), epoch := 75000 }).1 =
        true := by
  have hkey : secretBytes "MZXW6" = .ok [102, 111, 111] :=
    secretBytes_of_decode? (by decide +kernel) (by decide)
  have hother : Respelled "MZXW6".toList "mz xW6==".toList := by
    simp only [String.toList]
    repeat first | exact .nil | refine .letter (by decide) ?_ | refine .filler (by decide) ?_
  have hwindow : codeAt 30 "MZXW6" 30 = .ok "398408" := by
    rw [codeAt_of_secretBytes hkey]
    exact congrArg Except.ok (by decide +kernel)
  have htrim : Text.trim "398408 " = "398408" := by decide +kernel
  obtain ⟨hcodes, haccepts, hspelled⟩ := codes_of_secretBytes (e := {}) (by decide) hkey
  obtain ⟨hcode, hverify⟩ := hspelled "mz xW6==" hother
  obtain ⟨code, hmade, -, -, hsame⟩ := hcodes 30
  refine ⟨⟨by decide, hkey, hother⟩, ?_, ?_⟩
  · exact (hcode 59).trans ((hsame 59 rfl).trans (hmade.symm.trans hwindow))
  · rw [hverify, haccepts _ _ 75000 _ rfl (by decide) (by decide)]
    exact ⟨1, by decide, by decide, by decide, htrim ▸ hwindow⟩

end Engine

end Totp

end SignOn
