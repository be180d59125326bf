import Mathlib.Data.Char
import Mathlib.Data.Nat.Basic
import SignOn.Json.Printer
import SignOn.Json.Reader

/-! # Numbers and strings, read as they are written

The leaves of a JSON text.  What the printer writes for an integer of 64 bits or for a string is read
back as that leaf, and the reader stops right behind it.

* **Numbers.**  `takeDigits_append` and `appendDigits_eq` follow the digits of a number into and out of
  the reader; `readNumber_toDigits` puts them together.  A number has no closing mark, so it needs
  something behind it that does not continue it (`EndsNumber`).
* **Strings.**  `readBody_quoteChar` is one character, `readBody_quoted` the body of a string. -/

namespace SignOn.Json

open Text (Symbol)

/-! ### Digits -/

theorem digit?_of_isDigit {c : Char} (h : c.isDigit = true) : digit? (some c) = some (c.toNat - 48) := by
  simp only [Char.isDigit, Bool.and_eq_true, decide_eq_true_eq, ge_iff_le, UInt32.le_iff_toNat_le] at h
  have h1 : 0x30 ≤ c.toNat := h.1
  have h2 : c.toNat ≤ 0x39 := h.2
  simp [digit?, h1, h2]

/-- All digits at the front are taken. -/
theorem takeDigits_append {cs : List Char} (hcs : ∀ c ∈ cs, c.isDigit = true) {rest : List Symbol}
    (hrest : ∀ s ∈ rest.head?, digit? s = none) :
    takeDigits (cs.map some ++ rest) = (cs.map fun c => c.toNat - 48, rest) := by
  induction cs with
  | nil =>
      cases rest with
      | nil => rfl
      | cons s rest => simp [takeDigits, hrest s rfl]
  | cons c cs ih =>
      have hc := digit?_of_isDigit (hcs c List.mem_cons_self)
      have ih := ih fun d hd => hcs d (List.mem_cons_of_mem c hd)
      simp [takeDigits, hc, ih]

theorem le_foldl_digits (ds : List Nat) (n : Nat) : n ≤ ds.foldl (fun n d => n * 10 + d) n := by
  induction ds generalizing n with
  | nil => exact Nat.le_refl n
  | cons d ds ih =>
      have := ih (n * 10 + d)
      simp only [List.foldl_cons]
      omega

/-- No digit is left over while the number stays below the limit. -/
theorem appendDigits_eq {limit : Nat} {ds : List Nat} {n : Nat}
    (h : ds.foldl (fun n d => n * 10 + d) n < limit) :
    appendDigits limit n ds = (ds.foldl (fun n d => n * 10 + d) n, 0) := by
  induction ds generalizing n with
  | nil => rfl
  | cons d ds ih =>
      simp only [List.foldl_cons] at h ⊢
      have hle := le_foldl_digits ds (n * 10 + d)
      have hlt : n * 10 + d < limit := by omega
      rw [appendDigits, if_pos hlt, ih h]

theorem foldl_toDigits (n : Nat) :
    ((Nat.toDigits 10 n).map fun c => c.toNat - 48).foldl (fun n d => n * 10 + d) 0 = n := by
  have h := Nat.ofDigitChars_ten_toDigits (n := n)
  rw [Nat.ofDigitChars_eq_foldl] at h
  rw [List.foldl_map]
  simpa [Nat.mul_comm] using h

theorem toDigits_eq_cons {n : Nat} (h : 0 < n) :
    ∃ c cs, Nat.toDigits 10 n = c :: cs ∧ c.toNat - 48 ≠ 0 := by
  induction n using Nat.strongRecOn with
  | ind n ih =>
      rw [Nat.toDigits_eq_if (by decide)]
      split
      · next hlt =>
          refine ⟨n.digitChar, [], rfl, ?_⟩
          rw [Nat.toNat_digitChar_sub_48_of_lt_ten hlt]
          omega
      · obtain ⟨c, cs, hcs, hc⟩ := ih (n / 10) (by omega) (by omega)
        exact ⟨c, cs ++ [(n % 10).digitChar], by rw [hcs, List.cons_append], hc⟩

/-! ### Numbers -/

/-- Nothing, or something that does not continue a number. -/
def EndsNumber (ss : List Symbol) : Prop :=
  ∀ s ∈ ss.head?, digit? s = none ∧ s ≠ some '.' ∧ s ≠ some 'e' ∧ s ≠ some 'E'

theorem readFraction_of_endsNumber (negative : Bool) (n : Nat) {rest : List Symbol} (h : EndsNumber rest) :
    readFraction negative n 0 rest = (integerLeaf negative n, some rest) := by
  unfold readFraction
  split
  · exact absurd rfl (h _ rfl).2.1
  · exact absurd rfl (h _ rfl).2.2.1
  · exact absurd rfl (h _ rfl).2.2.2
  · rfl

/-- The digits of a number are read as that number. -/
theorem readNumber_toDigits (negative : Bool) {n : Nat} (hn : n < 0x10000000000000000) {rest : List Symbol}
    (h : EndsNumber rest) :
    readNumber negative ((Nat.toDigits 10 n).map some ++ rest) = (integerLeaf negative n, some rest) := by
  have hdigits : ∀ c ∈ Nat.toDigits 10 n, c.isDigit := fun c hc =>
    Nat.isDigit_of_mem_toDigits (by decide) (by decide) hc
  have htake := takeDigits_append hdigits fun s hs => (h s hs).1
  have hsum := foldl_toDigits n
  rw [readNumber, htake]
  rcases Nat.eq_zero_or_pos n with rfl | hpos
  · exact readFraction_of_endsNumber negative 0 h
  · obtain ⟨c, cs, hcs, hc⟩ := toDigits_eq_cons hpos
    have happ := appendDigits_eq (lt_of_eq_of_lt hsum hn)
    rw [hsum] at happ
    rw [hcs] at happ ⊢
    rw [List.map_cons] at happ ⊢
    generalize c.toNat - 48 = d at hc happ ⊢
    cases d with
    | zero => exact absurd rfl hc
    | succ d =>
        simp only [happ]
        exact readFraction_of_endsNumber negative n h

/-! ### Strings -/

theorem hexDigit?_digitChar {n : Nat} (h : n < 16) : hexDigit? (some n.digitChar) = some n := by
  have : ∀ n < 16, hexDigit? (some (Nat.digitChar n)) = some n := by decide
  exact this n h

theorem codeUnit?_control {n : Nat} (h : n < 0x20) :
    codeUnit? (some '0') (some '0') (some (Nat.digitChar (n / 16))) (some (Nat.digitChar (n % 16))) =
      some n := by
  have h0 : hexDigit? (some '0') = some 0 := rfl
  rw [codeUnit?, h0, hexDigit?_digitChar (by omega), hexDigit?_digitChar (by omega)]
  simp only [Option.bind_eq_bind, Option.bind_some, Option.pure_def, Option.some.injEq]
  omega

/-- A body of a string in which nothing has gone wrong so far. -/
def StringBody.clean (chars : List Char) : StringBody := { chars }

/-- A character is read as it has been written. -/
theorem readBody_quoteChar (acc : List Char) (c : Char) (ss : List Symbol) :
    readBody (.clean acc) ((quoteChar c).map some ++ ss) = readBody (.clean (c :: acc)) ss := by
  unfold quoteChar
  split_ifs with h1 h2 h3 h4 h5 h6 h7 h8
  · subst h1; rfl
  · subst h2; rfl
  · subst h3; rfl
  · subst h4; rfl
  · subst h5; rfl
  · subst h6; rfl
  · subst h7; rfl
  · have hunit := codeUnit?_control h8
    have hchar : Char.ofNat c.toNat = c := Char.ofNat_toNat c
    simp only [controlDigits, List.map_cons, List.map_nil, List.cons_append, List.nil_append]
    rw [readBody, hunit]
    simp only [StringBody.pushUnit, StringBody.clean]
    rw [if_neg (by omega), if_neg (by omega), hchar]
  · simp only [List.map_cons, List.map_nil, List.cons_append, List.nil_append]
    rw [readBody]
    · rw [if_neg h8]
      rfl
    all_goals intros; simp_all

theorem readBody_clean (acc cs : List Char) (rest : List Symbol) :
    readBody (.clean acc) ((cs.flatMap quoteChar).map some ++ some '"' :: rest) =
      (.ok (String.ofList (acc.reverse ++ cs)), some rest) := by
  induction cs generalizing acc with
  | nil => simp [readBody, StringBody.close, StringBody.clean]
  | cons c cs ih =>
      rw [List.flatMap_cons, List.map_append, List.append_assoc, readBody_quoteChar, ih]
      simp

/-- The body of a string is read as it has been written. -/
theorem readBody_quoted (s : String) (rest : List Symbol) :
    readBody {} ((s.toList.flatMap quoteChar).map some ++ some '"' :: rest) = (.ok s, some rest) := by
  have h := readBody_clean [] s.toList rest
  rwa [List.reverse_nil, List.nil_append, String.ofList_toList] at h

end SignOn.Json
