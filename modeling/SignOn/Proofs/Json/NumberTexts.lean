import SignOn.Proofs.Json.Decoding

/-! # Numbers whose texts are read back

A number is read back from its text wherever the text stands if it is read back from the text as a whole
(`Number.readsBack_of_parse`), provided the text has no blanks, as that of every double (`Decimal.solid_text`).  Whether
a double is read back from its text at all is a matter of rounding, and nothing is said about it here. -/

namespace SignOn

namespace Decimal

/-! ### Texts without blanks -/

def Solid (s : String) : Prop :=
  s.toList.all (fun c => !Json.isGap (some c)) = true

instance (s : String) : Decidable (Solid s) :=
  inferInstanceAs (Decidable (_ = true))

theorem solid_iff {s : String} : Solid s ↔ ∀ c ∈ s.toList, Json.isGap (some c) = false := by
  simp [Solid]

theorem Solid.append {s t : String} (hs : Solid s) (ht : Solid t) : Solid (s ++ t) := by
  rw [Solid, String.toList_append, List.all_append, hs, ht]
  rfl

theorem Solid.ofList {s : String} (hs : Solid s) {cs : List Char} (h : cs ⊆ s.toList) : Solid (.ofList cs) := by
  refine solid_iff.mpr fun c hc => ?_
  rw [String.toList_ofList] at hc
  exact solid_iff.mp hs c (h hc)

theorem solid_toString (n : Nat) : Solid (toString n) := by
  refine solid_iff.mpr fun c hc => ?_
  refine Json.isGap_of_isDigit (Json.toDigits_isDigit (n := n) ?_)
  simpa [toString, Nat.repr] using hc

theorem solid_zeros (n : Nat) : Solid (zeros n) := by
  refine solid_iff.mpr fun c hc => ?_
  rw [zeros, String.toList_ofList] at hc
  rw [List.eq_of_mem_replicate hc]
  rfl

theorem solid_pointAfter {digits : String} (h : Solid digits) (n : Nat) : Solid (pointAfter digits n) :=
  ((h.ofList (List.take_subset _ _)).append (by decide)).append (h.ofList (List.drop_subset _ _))

theorem solid_positional {digits : String} (h : Solid digits) (point : Int) : Solid (positional digits point) := by
  unfold positional
  split_ifs
  · exact ((by decide : Solid "0.").append (solid_zeros _)).append h
  · exact (h.append (solid_zeros _)).append (by decide)
  · exact solid_pointAfter h _

theorem solid_withExponent {digits : String} (h : Solid digits) (exponent : Int) :
    Solid (withExponent digits exponent) := by
  have hmantissa : Solid (if digits.length = 1 then digits else pointAfter digits 1) := by
    split_ifs
    · exact h
    · exact solid_pointAfter h 1
  have hsign : Solid (if exponent < 0 then "-" else "+") := by
    split_ifs <;> decide
  exact ((hmantissa.append (by decide)).append hsign).append ((solid_zeros _).append (solid_toString _))

theorem solid_text (bits : UInt64) : Solid (text bits) := by
  unfold text
  split
  · decide
  · split_ifs <;> decide
  · next negative b _ =>
      have hsign : Solid (if negative then "-" else "") := by
        split_ifs <;> decide
      dsimp only
      refine hsign.append ?_
      split_ifs
      · exact solid_positional (solid_toString _) _
      · exact solid_withExponent (solid_toString _) _

end Decimal

/-! ### Numbers as whole texts -/

namespace Json

open Text (Symbol)

theorem eq_number_of_value {depth : Nat} {d : Draft} {n : Number} (h : value depth d = .ok (.number n)) :
    d = .number n := by
  cases d with
  | number m => simpa [value] using h
  | null | bool _ | string _ | unusable _ => simp [value] at h
  | array items =>
      cases depth with
      | zero => simp [value] at h
      | succ depth => cases hitems : valueItems depth items <;> simp [value, hitems, Except.map] at h
  | object members =>
      cases depth with
      | zero => simp [value] at h
      | succ depth => cases hmembers : valueMembers depth .nil members <;> simp [value, hmembers, Except.map] at h

theorem isNumber_of_textOf {n : Number} {ss : List Symbol} (h : TextOf (.number n) ss) :
    ∃ cs, IsNumber (.number n) cs ∧ ss = cs.map some := by
  generalize hd : Draft.number n = d at h
  cases h with
  | number hcs => exact ⟨_, hcs, rfl⟩
  | @string ps body hbody =>
      unfold stringLeaf at hd
      split at hd <;> cases hd
  | null | yes | no | array _ _ | object _ _ => cases hd

end Json

theorem Number.readsBack_of_isNumber {n : Number} (h : Json.IsNumber (.number n) (Json.numberText n).toList) :
    n.ReadsBack := by
  refine ⟨?_, fun fuel rest hrest => Json.readValue_number h fuel hrest⟩
  rcases h with h | ⟨unsigned, -, hcs⟩
  · obtain ⟨c, cs, hcs, hc⟩ := h.exists_cons
    exact ⟨c, cs, hcs, .inr hc⟩
  · exact ⟨'-', unsigned, hcs, .inl rfl⟩

/-- A number without blanks in its text that is read back from it as a whole text. -/
theorem Number.readsBack_of_parse {n : Number} (hsolid : Decimal.Solid (Json.numberText n))
    (h : Json.parse (Json.numberText n) = .ok (.number n)) : n.ReadsBack := by
  obtain ⟨d, hread, hvalue⟩ := Json.decodeReading_eq_ok_iff.mp h
  obtain rfl := Json.eq_number_of_value hvalue
  obtain ⟨before, _, behind, hbefore, htext, hbehind, hsymbols⟩ := Json.readSymbols_eq_iff.mp ⟨hread, rfl⟩
  obtain ⟨cs, hcs, rfl⟩ := Json.isNumber_of_textOf htext
  have hchars : (Json.numberText n).toList = before ++ (cs ++ behind) := by
    refine List.map_injective_iff.mpr (fun _ _ => Option.some.inj) ?_
    rw [← Text.symbols, hsymbols, List.map_append, List.map_append]
  have hnone : ∀ gap, Json.Gap gap → gap ⊆ (Json.numberText n).toList → gap = [] := by
    refine fun gap hgap hsub => List.eq_nil_iff_forall_not_mem.mpr fun c hc => ?_
    cases (Decimal.solid_iff.mp hsolid c (hsub hc)).symm.trans (hgap c hc)
  obtain rfl := hnone before hbefore fun c hc => by simp [hchars, hc]
  obtain rfl := hnone behind hbehind fun c hc => by simp [hchars, hc]
  rw [List.nil_append, List.append_nil] at hchars
  exact readsBack_of_isNumber (hchars ▸ hcs)

end SignOn
