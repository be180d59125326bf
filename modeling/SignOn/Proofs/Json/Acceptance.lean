import SignOn.Proofs.Json.Tokens

/-! # What the reader accepts

The reader of values against the grammar.

* `readValue_of_textOf`: it reads a text of a tree as that tree, whatever follows.  The fuel shows as a bound by the
  length of the text, and in `readSymbols_eq_iff` no more.
* `textOf_of_readValue`: what it has read is a text of the tree it gives.
* `skip_of_readValue`: where the symbols end or stop being JSON, the tree says so and cannot be passed over. -/

namespace SignOn.Json

open Text (Symbol)

variable {d : Draft} {items : DraftItems} {members : DraftMembers} {ss next rest : List Symbol} {gap : List Char}

/-! ### Gaps -/

theorem skipGap_append (h : Gap gap) (ss : List Symbol) : skipGap (gap.map some ++ ss) = skipGap ss := by
  induction gap with
  | nil => rfl
  | cons c gap ih =>
      have hc : isGap (some c) = true := h c List.mem_cons_self
      rw [List.map_cons, List.cons_append, skipGap, List.dropWhile_cons, if_pos hc]
      exact ih fun d hd => h d (List.mem_cons_of_mem c hd)

theorem skipGap_cons {s : Symbol} (h : isGap s = false) (ss : List Symbol) :
    skipGap (s :: ss) = s :: ss := by
  rw [skipGap, List.dropWhile_cons, if_neg (by simp [h])]

theorem skipGap_close (h : Gap gap) {s : Symbol} (hs : isGap s = false)
    (ss : List Symbol) : skipGap (gap.map some ++ s :: ss) = s :: ss := by
  rw [skipGap_append h, skipGap_cons hs]

theorem exists_gap (ss : List Symbol) : ∃ gap, Gap gap ∧ ss = gap.map some ++ skipGap ss := by
  induction ss with
  | nil => exact ⟨[], gap_nil, rfl⟩
  | cons s ss ih =>
      by_cases hs : isGap s = true
      · obtain ⟨gap, hgap, hss⟩ := ih
        match s, hs with
        | some c, hs =>
            refine ⟨c :: gap, fun d hd => ?_, ?_⟩
            · rcases List.mem_cons.mp hd with rfl | hd
              · exact hs
              · exact hgap d hd
            · rw [skipGap, List.dropWhile_cons, if_pos hs, List.map_cons, List.cons_append]
              exact congrArg _ hss
      · exact ⟨[], gap_nil, (skipGap_cons (Bool.eq_false_iff.mpr hs) ss).symm⟩

theorem gap_append {gap' : List Char} (h : Gap gap) (h' : Gap gap') : Gap (gap ++ gap') :=
  fun c hc => (List.mem_append.mp hc).elim (h c) (h' c)

theorem readValue_gap (h : Gap gap) (fuel : Nat) (ss : List Symbol) :
    readValue fuel (gap.map some ++ ss) = readValue fuel ss := by
  cases fuel with
  | zero => rfl
  | succ fuel => rw [readValue, readValue, skipGap_append h]

/-- The mark behind an item or a member does not continue a number, nor does a gap before it. -/
theorem endsNumber_close (h : Gap gap) {c : Char} (hc : c = ',' ∨ c = ']' ∨ c = '\x7d')
    (rest : List Symbol) : EndsNumber (gap.map some ++ some c :: rest) := by
  intro s hs
  cases gap with
  | nil =>
      cases Option.some.inj hs
      rcases hc with rfl | rfl | rfl <;> decide
  | cons d gap =>
      cases Option.some.inj hs
      have hd := h d List.mem_cons_self
      simp only [isGap, Bool.or_eq_true, decide_eq_true_eq, Option.some.injEq] at hd
      rcases hd with ((rfl | rfl) | rfl) | rfl <;> decide

theorem isGap_of_isDigit {c : Char} (h : c.isDigit = true) : isGap (some c) = false := by
  have hblank : ∀ d ∈ [' ', '\n', '\t', '\r'], d.isDigit = false := by
    intro d hd
    simp only [List.mem_cons, List.not_mem_nil, or_false] at hd
    rcases hd with rfl | rfl | rfl | rfl <;> rfl
  have hne : ∀ d ∈ [' ', '\n', '\t', '\r'], c ≠ d := by
    intro d hd e
    rw [e, hblank d hd] at h
    cases h
  simp only [List.mem_cons, List.not_mem_nil, or_false, forall_eq_or_imp, forall_eq] at hne
  simp [isGap, hne]

/-! ### Texts -/

theorem IsUnsigned.exists_cons {negative : Bool} {cs : List Char} (h : IsUnsigned negative d cs) :
    ∃ c cs', cs = c :: cs' ∧ c.isDigit = true := by
  obtain ⟨whole, fraction, exponent, ftext, etext, ⟨hwhole, -⟩, -, -, -, rfl⟩ := h
  obtain ⟨c, cs, rfl, hc⟩ := hwhole.exists_cons
  exact ⟨c, cs ++ (ftext ++ etext), rfl, hc⟩

theorem TextOf.exists_cons (h : TextOf d ss) : ∃ c ss', ss = some c :: ss' ∧ isGap (some c) = false ∧ c ≠ ']' := by
  cases h with
  | null => exact ⟨'n', _, rfl, rfl, by decide⟩
  | yes => exact ⟨'t', _, rfl, rfl, by decide⟩
  | no => exact ⟨'f', _, rfl, rfl, by decide⟩
  | string => exact ⟨'"', _, rfl, rfl, by decide⟩
  | array => exact ⟨'[', _, rfl, rfl, by decide⟩
  | object => exact ⟨'\x7b', _, rfl, rfl, by decide⟩
  | number hn =>
      rcases hn with hn | ⟨cs, -, rfl⟩
      · obtain ⟨c, cs, rfl, hc⟩ := hn.exists_cons
        refine ⟨c, _, rfl, isGap_of_isDigit hc, ?_⟩
        rintro rfl
        cases hc
      · exact ⟨'-', _, rfl, rfl, by decide⟩

theorem IsLeading.length_pos {lead : List Char} (h : IsLeading false lead) : 0 < lead.length := by
  obtain ⟨before, behind, -, -, rfl⟩ := h
  exact List.length_pos_iff.mpr (by simp)

theorem ItemsTextOf.endsNumber (h : ItemsTextOf false items ss) (hrest : EndsNumber rest) :
    EndsNumber (ss ++ rest) := by
  cases h with
  | stop => exact hrest
  | more hlead =>
      obtain ⟨before, behind, hbefore, -, rfl⟩ := hlead
      simp only [List.map_append, List.map_cons, List.append_assoc, List.cons_append]
      exact endsNumber_close hbefore (.inl rfl) _

theorem MembersTextOf.endsNumber (h : MembersTextOf false members ss) (hrest : EndsNumber rest) :
    EndsNumber (ss ++ rest) := by
  cases h with
  | stop => exact hrest
  | more hlead =>
      obtain ⟨before, behind, hbefore, -, rfl⟩ := hlead
      simp only [List.map_append, List.map_cons, List.append_assoc, List.cons_append]
      exact endsNumber_close hbefore (.inl rfl) _

theorem skip_numberLeaf (negative : Bool) (whole : List Char) (fraction : Option (List Char))
    (exponent : Option (Bool × List Char)) : (numberLeaf negative whole fraction exponent).skip = none := by
  have hfloat : ∀ significand exponent, (floatLeaf negative significand exponent).skip = none := by
    intro significand exponent
    unfold floatLeaf
    split <;> rfl
  have hscaled : ∀ significand start exponent, (scaledLeaf negative significand start exponent).skip = none := by
    intro significand start exponent
    unfold scaledLeaf
    split
    · exact hfloat _ _
    · unfold exponentLeaf
      split
      · exact hfloat _ _
      · split <;> rfl
  unfold numberLeaf fractionLeaf
  dsimp only
  split
  · split
    · unfold integerLeaf
      repeat' split
      all_goals rfl
    · exact hfloat _ _
  · exact hscaled _ _ _
  · exact hscaled _ _ _

theorem stringOf_error {ps : List StringPart} {u : Unusable} (h : stringOf ps = .error u) : u.skipped = none := by
  unfold stringOf at h
  split at h
  · cases h
  · obtain rfl := Except.error.inj h
    rfl

theorem skip_stringLeaf (ps : List StringPart) : (stringLeaf ps).skip = none := by
  unfold stringLeaf
  split
  · rfl
  · next h => exact stringOf_error h

mutual

theorem TextOf.skip : ∀ {d : Draft} {ss : List Symbol}, TextOf d ss → d.skip = none
  | _, _, .null | _, _, .yes | _, _, .no => rfl
  | _, _, .number (.inl ⟨_, _, _, _, _, _, _, _, hleaf, _⟩) => hleaf ▸ skip_numberLeaf ..
  | _, _, .number (.inr ⟨_, ⟨_, _, _, _, _, _, _, _, hleaf, _⟩, _⟩) => hleaf ▸ skip_numberLeaf ..
  | _, _, .string _ => skip_stringLeaf _
  | _, _, .array h _ => h.skip
  | _, _, .object h _ => h.skip

theorem ItemsTextOf.skip : ∀ {first : Bool} {items : DraftItems} {ss : List Symbol}, ItemsTextOf first items ss →
    items.skip = none
  | _, _, _, .stop => rfl
  | _, _, _, .more _ hitem htail => by rw [DraftItems.skip, hitem.skip, htail.skip]

theorem MembersTextOf.skip : ∀ {first : Bool} {members : DraftMembers} {ss : List Symbol},
    MembersTextOf first members ss → members.skip = none
  | _, _, _, .stop => rfl
  | _, _, _, .more _ _ _ _ hitem htail => by
    rw [DraftMembers.skip, hitem.skip, htail.skip]
    intro _ _ hkey
    cases stringOf_error hkey

end

/-! ### Steps of the reader -/

theorem readItems_close (fuel : Nat) (hg : Gap gap) (rest : List Symbol) :
    readItems (fuel + 1) (gap.map some ++ some ']' :: rest) = (.stop none, some rest) := by
  simp only [readItems, skipGap_close hg (s := some ']') rfl]

theorem readItems_first (fuel : Nat) (hg : Gap gap) {c : Char} (hc : isGap (some c) = false) (hc' : c ≠ ']') :
    readItems (fuel + 1) (gap.map some ++ some c :: next) = readItem fuel (some c :: next) := by
  rw [readItems, skipGap_close hg hc]
  split
  · next h => cases h
  · next h => exact absurd (Option.some.inj (List.cons.inj h).1) hc'
  · rfl

theorem readItem_last {fuel : Nat} (hg : Gap gap)
    (h : readValue fuel ss = (d, some (gap.map some ++ some ']' :: rest))) :
    readItem (fuel + 1) ss = (.more d (.stop none), some rest) := by
  simp only [readItem, h, skipGap_close hg (s := some ']') rfl]

theorem readItem_next {fuel : Nat} {lead : List Char} (hlead : IsLeading false lead) {c : Char}
    (hc : isGap (some c) = false) (hc' : c ≠ ']')
    (h : readValue fuel ss = (d, some (lead.map some ++ some c :: next)))
    (hnext : readItem fuel (some c :: next) = (items, some rest)) :
    readItem (fuel + 1) ss = (.more d items, some rest) := by
  obtain ⟨before, behind, hbefore, hbehind, rfl⟩ := hlead
  simp only [List.map_append, List.map_cons, List.append_assoc, List.cons_append] at h
  rw [readItem, h]
  simp only [skipGap_close hbefore (s := some ',') rfl, skipGap_close hbehind hc]
  split
  · next h => exact absurd (Option.some.inj (List.cons.inj h).1) hc'
  · rw [hnext]

theorem readMembers_close (fuel : Nat) (hg : Gap gap) (rest : List Symbol) :
    readMembers (fuel + 1) (gap.map some ++ some '\x7d' :: rest) = (.stop none, some rest) := by
  simp only [readMembers, skipGap_close hg (s := some '\x7d') rfl]

section

variable {ps : List StringPart} {body : List Symbol} {before behind : List Char}

theorem readMembers_first (fuel : Nat) (hg : Gap gap) :
    readMembers (fuel + 1) (gap.map some ++ memberStart body before behind ss) =
      readMember fuel (memberStart body before behind ss) := by
  rw [memberStart, readMembers, skipGap_close hg (s := some '"') rfl]
  split
  · next h => cases h
  · next h => cases h
  · rfl

theorem readMember_last {fuel : Nat} (hbody : BodyOf ps body) (hbefore : Gap before) (hbehind : Gap behind)
    (hg : Gap gap) (h : readValue fuel ss = (d, some (gap.map some ++ some '\x7d' :: rest))) :
    readMember (fuel + 1) (memberStart body before behind ss) = (.more (stringOf ps) d (.stop none), some rest) := by
  rw [memberStart, readMember, readBody_eq_iff.mpr ⟨ps, body, hbody, rfl, rfl⟩]
  simp only [skipGap_close hbefore (s := some ':') rfl, readValue_gap hbehind, h,
    skipGap_close hg (s := some '\x7d') rfl]

theorem readMember_next {fuel : Nat} {lead : List Char} (hlead : IsLeading false lead) (hbody : BodyOf ps body)
    (hbefore : Gap before) (hbehind : Gap behind)
    (h : readValue fuel ss = (d, some (lead.map some ++ some '"' :: next)))
    (hnext : readMember fuel (some '"' :: next) = (members, some rest)) :
    readMember (fuel + 1) (memberStart body before behind ss) = (.more (stringOf ps) d members, some rest) := by
  obtain ⟨before', behind', hbefore', hbehind', rfl⟩ := hlead
  simp only [List.map_append, List.map_cons, List.append_assoc, List.cons_append] at h
  rw [memberStart, readMember, readBody_eq_iff.mpr ⟨ps, body, hbody, rfl, rfl⟩]
  simp only [skipGap_close hbefore (s := some ':') rfl, readValue_gap hbehind, h,
    skipGap_close hbefore' (s := some ',') rfl, skipGap_close hbehind' (s := some '"') rfl]
  split
  · next h => cases h
  · rw [hnext]

end

theorem readValue_digit (fuel : Nat) {c : Char} (hc : c.isDigit = true) (ss : List Symbol) :
    readValue (fuel + 1) (some c :: ss) = readNumber false (some c :: ss) := by
  have hne : ∀ d : Char, d.isDigit = false → ∀ rest, some c :: ss ≠ some d :: rest := by
    intro d hd rest e
    rw [Option.some.inj (List.cons.inj e).1, hd] at hc
    cases hc
  rw [readValue, skipGap_cons (isGap_of_isDigit hc)]
  split
  · next h => cases h
  all_goals try next h => exact absurd h (hne _ rfl _)
  next h =>
    obtain ⟨rfl, rfl⟩ := List.cons.inj h
    rw [digit?_of_isDigit hc]
    rfl

theorem readValue_number {cs : List Char} (h : IsNumber d cs) (fuel : Nat) (hrest : EndsNumber rest) :
    readValue (fuel + 1) (cs.map some ++ rest) = (d, some rest) := by
  rcases h with h | ⟨cs, h, rfl⟩
  · obtain ⟨c, cs', rfl, hc⟩ := h.exists_cons
    exact (readValue_digit fuel hc _).trans (readNumber_of h hrest)
  · exact readNumber_of h hrest

theorem readValue_string {ps : List StringPart} {body : List Symbol} (h : BodyOf ps body) (fuel : Nat)
    (rest : List Symbol) :
    readValue (fuel + 1) (some '"' :: (body ++ some '"' :: rest)) = (stringLeaf ps, some rest) := by
  have hread : readBody {} (body ++ some '"' :: rest) = (stringOf ps, some rest) :=
    readBody_eq_iff.mpr ⟨ps, body, h, rfl, rfl⟩
  simp only [readValue, skipGap_cons (s := some '"') rfl, hread, stringLeaf]
  cases stringOf ps <;> rfl

theorem readValue_array {fuel : Nat} (h : readItems fuel ss = (items, some rest)) :
    readValue (fuel + 1) (some '[' :: ss) = (.array items, some rest) := by
  simp only [readValue, skipGap_cons (s := some '[') rfl, h]

theorem readValue_object {fuel : Nat} (h : readMembers fuel ss = (members, some rest)) :
    readValue (fuel + 1) (some '\x7b' :: ss) = (.object members, some rest) := by
  simp only [readValue, skipGap_cons (s := some '\x7b') rfl, h]

/-! ### Texts are read -/

mutual

/-- A text of a tree is read as that tree. -/
theorem readValue_of_textOf : ∀ {d : Draft} {ss : List Symbol}, TextOf d ss → ∀ (fuel : Nat), 3 * ss.length ≤ fuel →
    ∀ {rest : List Symbol}, EndsNumber rest → readValue fuel (ss ++ rest) = (d, some rest)
  | _, _, h, 0, hf, rest, hrest => by
    obtain ⟨c, ss, rfl, -⟩ := h.exists_cons
    simp at hf
  | _, _, .null, fuel + 1, _, rest, _ => rfl
  | _, _, .yes, fuel + 1, _, rest, _ => rfl
  | _, _, .no, fuel + 1, _, rest, _ => rfl
  | _, _, .number h, fuel + 1, _, rest, hrest => readValue_number h fuel hrest
  | _, _, .string h, fuel + 1, _, rest, _ => by
    simpa using readValue_string h fuel rest
  | _, _, .array .stop hgap, fuel + 1, hf, rest, _ => by
    obtain ⟨fuel, rfl⟩ : ∃ k, fuel = k + 1 := Nat.exists_eq_add_of_le' (by simp at hf; omega)
    simpa using readValue_array (readItems_close fuel hgap rest)
  | _, _, .array (.more hlead hitem htail) hgap, fuel + 1, hf, rest, _ => by
    -- Three calls lead from the bracket to the first item, for one symbol: hence the factor in the bound.
    obtain ⟨c, item, rfl, hc, hc'⟩ := hitem.exists_cons
    simp only [List.length_append, List.length_cons, List.length_map] at hf
    obtain ⟨fuel, rfl⟩ : ∃ k, fuel = k + 3 := Nat.exists_eq_add_of_le' (by omega)
    have hends := htail.endsNumber (endsNumber_close hgap (.inr (.inl rfl)) rest)
    have hvalue := readValue_of_textOf hitem (fuel + 1) (by simp; omega) hends
    have hitems := readItem_of_itemsTextOf htail (by omega) hgap hvalue
    have hfirst := (readItems_first (fuel + 2) hlead hc hc').trans hitems
    simpa using readValue_array hfirst
  | _, _, .object .stop hgap, fuel + 1, hf, rest, _ => by
    obtain ⟨fuel, rfl⟩ : ∃ k, fuel = k + 1 := Nat.exists_eq_add_of_le' (by simp at hf; omega)
    simpa using readValue_object (readMembers_close fuel hgap rest)
  | _, _, .object (.more hlead hbody hbefore hbehind hitem htail) hgap, fuel + 1, hf, rest, _ => by
    simp only [memberStart, List.length_append, List.length_cons, List.length_map] at hf
    obtain ⟨fuel, rfl⟩ : ∃ k, fuel = k + 3 := Nat.exists_eq_add_of_le' (by omega)
    have hends := htail.endsNumber (endsNumber_close hgap (.inr (.inr rfl)) rest)
    have hvalue := readValue_of_textOf hitem (fuel + 1) (by omega) hends
    have hmembers := readMember_of_membersTextOf htail (by omega) hgap hbody hbefore hbehind hvalue
    have hfirst := (readMembers_first (fuel + 2) hlead).trans hmembers
    simpa [memberStart] using readValue_object hfirst

theorem readItem_of_itemsTextOf : ∀ {items : DraftItems} {tail : List Symbol}, ItemsTextOf false items tail →
    ∀ {fuel : Nat}, 3 * tail.length ≤ fuel → ∀ {gap : List Char}, Gap gap →
    ∀ {ss rest : List Symbol} {d : Draft},
    readValue fuel ss = (d, some (tail ++ (gap.map some ++ some ']' :: rest))) →
    readItem (fuel + 1) ss = (.more d items, some rest)
  | _, _, .stop, _, _, _, hgap, _, _, _, h => readItem_last hgap h
  | _, _, .more hlead hitem htail, fuel, hf, gap, hgap, ss, rest, d, h => by
    obtain ⟨c, item, rfl, hc, hc'⟩ := hitem.exists_cons
    have hcomma := hlead.length_pos
    simp only [List.length_append, List.length_cons, List.length_map] at hf
    obtain ⟨fuel, rfl⟩ : ∃ k, fuel = k + 1 := Nat.exists_eq_add_of_le' (by omega)
    have hends := htail.endsNumber (endsNumber_close hgap (.inr (.inl rfl)) rest)
    have hvalue := readValue_of_textOf hitem fuel (by simp; omega) hends
    have hitems := readItem_of_itemsTextOf htail (by omega) hgap hvalue
    refine readItem_next hlead hc hc' ?_ hitems
    simpa using h

theorem readMember_of_membersTextOf : ∀ {members : DraftMembers} {tail : List Symbol},
    MembersTextOf false members tail → ∀ {fuel : Nat}, 3 * tail.length ≤ fuel →
    ∀ {gap : List Char}, Gap gap → ∀ {ps : List StringPart} {body : List Symbol}, BodyOf ps body →
    ∀ {before behind : List Char}, Gap before → Gap behind → ∀ {ss rest : List Symbol} {d : Draft},
    readValue fuel ss = (d, some (tail ++ (gap.map some ++ some '\x7d' :: rest))) →
    readMember (fuel + 1) (memberStart body before behind ss) = (.more (stringOf ps) d members, some rest)
  | _, _, .stop, _, _, _, hgap, _, _, hbody, _, _, hbefore, hbehind, _, _, _, h =>
    readMember_last hbody hbefore hbehind hgap h
  | _, _, .more hlead hbody' hbefore' hbehind' hitem htail, fuel, hf, gap, hgap, ps, body, hbody, before, behind,
      hbefore, hbehind, ss, rest, d, h => by
    simp only [memberStart, List.length_append, List.length_cons, List.length_map] at hf
    obtain ⟨fuel, rfl⟩ : ∃ k, fuel = k + 1 := Nat.exists_eq_add_of_le' (by omega)
    have hends := htail.endsNumber (endsNumber_close hgap (.inr (.inr rfl)) rest)
    have hvalue := readValue_of_textOf hitem fuel (by omega) hends
    have hmembers := readMember_of_membersTextOf htail (by omega) hgap hbody' hbefore' hbehind' hvalue
    refine readMember_next hlead hbody hbefore hbehind ?_ hmembers
    simpa [memberStart] using h

end

/-! ### What has been read is a text -/

theorem readWord_eq {leaf : Draft} {cs : List Char} (h : readWord leaf cs ss = (d, some rest)) :
    d = leaf ∧ ss = cs.map some ++ rest := by
  fun_induction readWord leaf cs ss with
  | case1 ss =>
      obtain ⟨rfl, hrest⟩ := Prod.mk.inj h
      exact ⟨rfl, Option.some.inj hrest⟩
  | case2 | case4 => cases h
  | case3 c cs ss ih =>
      obtain ⟨rfl, rfl⟩ := ih h
      exact ⟨rfl, rfl⟩

/-- Items up to a closing bracket. -/
def ItemsUpTo (first : Bool) (items : DraftItems) (ss rest : List Symbol) : Prop :=
  ∃ inner gap, ItemsTextOf first items inner ∧ Gap gap ∧ ss = inner ++ (gap.map some ++ some ']' :: rest)

/-- Members up to a closing brace. -/
def MembersUpTo (first : Bool) (members : DraftMembers) (ss rest : List Symbol) : Prop :=
  ∃ inner gap, MembersTextOf first members inner ∧ Gap gap ∧ ss = inner ++ (gap.map some ++ some '\x7d' :: rest)

theorem ItemsUpTo.more {first : Bool} {lead : List Char} {text : List Symbol} (hlead : IsLeading first lead)
    (htext : TextOf d text) (h : ItemsUpTo false items ss rest) :
    ItemsUpTo first (.more d items) (lead.map some ++ (text ++ ss)) rest := by
  obtain ⟨inner, gap, hinner, hgap, rfl⟩ := h
  exact ⟨_, gap, .more hlead htext hinner, hgap, by simp⟩

theorem MembersUpTo.more {first : Bool} {lead before behind : List Char} {ps : List StringPart}
    {body text : List Symbol} (hlead : IsLeading first lead) (hbody : BodyOf ps body) (hbefore : Gap before)
    (hbehind : Gap behind) (htext : TextOf d text) (h : MembersUpTo false members ss rest) :
    MembersUpTo first (.more (stringOf ps) d members)
      (lead.map some ++ memberStart body before behind (text ++ ss)) rest := by
  obtain ⟨inner, gap, hinner, hgap, rfl⟩ := h
  exact ⟨_, gap, .more hlead hbody hbefore hbehind htext hinner, hgap, by simp [memberStart]⟩

theorem ItemsUpTo.afterGap (hgap : Gap gap) (h : ItemsUpTo true (.more d items) ss rest) :
    ItemsUpTo true (.more d items) (gap.map some ++ ss) rest := by
  obtain ⟨inner, gap', hinner, hgap', rfl⟩ := h
  cases hinner with
  | more hlead htext htail => exact ⟨_, gap', .more (gap_append hgap hlead) htext htail, hgap', by simp⟩

theorem MembersUpTo.afterGap {key : Except Unusable String} (hgap : Gap gap)
    (h : MembersUpTo true (.more key d members) ss rest) :
    MembersUpTo true (.more key d members) (gap.map some ++ ss) rest := by
  obtain ⟨inner, gap', hinner, hgap', rfl⟩ := h
  cases hinner with
  | more hlead hbody hbefore hbehind htext htail =>
      exact ⟨_, gap', .more (gap_append hgap hlead) hbody hbefore hbehind htext htail, hgap', by simp⟩

theorem ItemsUpTo.comma {before behind : List Char} (hbefore : Gap before) (hbehind : Gap behind)
    (h : ItemsUpTo true (.more d items) ss rest) :
    ItemsUpTo false (.more d items) (before.map some ++ some ',' :: (behind.map some ++ ss)) rest := by
  obtain ⟨inner, gap, hinner, hgap, rfl⟩ := h
  cases hinner with
  | more hlead htext htail =>
      exact ⟨_, gap, .more ⟨before, _, hbefore, gap_append hbehind hlead, rfl⟩ htext htail, hgap, by simp⟩

theorem MembersUpTo.comma {key : Except Unusable String} {before behind : List Char} (hbefore : Gap before)
    (hbehind : Gap behind) (h : MembersUpTo true (.more key d members) ss rest) :
    MembersUpTo false (.more key d members) (before.map some ++ some ',' :: (behind.map some ++ ss)) rest := by
  obtain ⟨inner, gap, hinner, hgap, rfl⟩ := h
  cases hinner with
  | more hlead hbody hbefore' hbehind' htext htail =>
      exact ⟨_, gap, .more ⟨before, _, hbefore, gap_append hbehind hlead, rfl⟩ hbody hbefore' hbehind' htext htail,
        hgap, by simp⟩

mutual

/-- What has been read is a text of the tree it gives. -/
theorem textOf_of_readValue : ∀ (fuel : Nat) {ss rest : List Symbol} {d : Draft},
    readValue fuel ss = (d, some rest) →
    ∃ gap text, Gap gap ∧ TextOf d text ∧ ss = gap.map some ++ (text ++ rest)
  | 0, _, _, _, h => by cases h
  | fuel + 1, ss, rest, d, h => by
    suffices htext : ∃ text, TextOf d text ∧ skipGap ss = text ++ rest by
      obtain ⟨gap, hgap, hss⟩ := exists_gap ss
      obtain ⟨text, htext, heq⟩ := htext
      exact ⟨gap, text, hgap, htext, heq ▸ hss⟩
    rw [readValue] at h
    split at h
    next => cases h
    next heq =>
      obtain ⟨rfl, rfl⟩ := readWord_eq h
      exact ⟨_, .null, heq⟩
    next heq =>
      obtain ⟨rfl, rfl⟩ := readWord_eq h
      exact ⟨_, .yes, heq⟩
    next heq =>
      obtain ⟨rfl, rfl⟩ := readWord_eq h
      exact ⟨_, .no, heq⟩
    next heq =>
      obtain ⟨cs, hcs, rfl⟩ := readNumber_eq h
      exact ⟨_, .number (.inr ⟨cs, hcs, rfl⟩), heq⟩
    next body heq =>
      have hstring : ∃ r, readBody {} body = (r, some rest) ∧ d = (match r with
          | .ok s => .string s
          | .error u => .unusable u) := by
        split at h <;> obtain ⟨rfl, rfl⟩ := Prod.mk.inj h
        · next hr => exact ⟨_, hr, rfl⟩
        · next hr => exact ⟨_, hr, rfl⟩
      obtain ⟨r, hr, rfl⟩ := hstring
      obtain ⟨ps, body, hbody, rfl, rfl⟩ := readBody_eq_iff.mp hr
      exact ⟨_, .string hbody, by simpa using heq⟩
    next heq =>
      obtain ⟨rfl, hrest⟩ := Prod.mk.inj h
      obtain ⟨inner, gap, hinner, hgap, rfl⟩ := itemsUpTo_of_readItems fuel (Prod.ext rfl hrest)
      exact ⟨_, .array hinner hgap, by simpa using heq⟩
    next heq =>
      obtain ⟨rfl, hrest⟩ := Prod.mk.inj h
      obtain ⟨inner, gap, hinner, hgap, rfl⟩ := membersUpTo_of_readMembers fuel (Prod.ext rfl hrest)
      exact ⟨_, .object hinner hgap, by simpa using heq⟩
    next heq =>
      split at h
      · obtain ⟨cs, hcs, hss⟩ := readNumber_eq h
        exact ⟨_, .number (.inl hcs), heq.trans hss⟩
      · cases h

theorem itemsUpTo_of_readItems : ∀ (fuel : Nat) {ss rest : List Symbol} {items : DraftItems},
    readItems fuel ss = (items, some rest) → ItemsUpTo true items ss rest
  | 0, _, _, _, h => by cases h
  | fuel + 1, ss, rest, items, h => by
    rw [readItems] at h
    obtain ⟨gap, hgap, hss⟩ := exists_gap ss
    split at h
    next => cases h
    next heq =>
      obtain ⟨rfl, hrest⟩ := Prod.mk.inj h
      obtain rfl := Option.some.inj hrest
      exact ⟨[], gap, .stop, hgap, heq ▸ hss⟩
    next =>
      obtain ⟨v, vs, rfl, hitems⟩ := itemsUpTo_of_readItem fuel h
      exact hss ▸ hitems.afterGap hgap

theorem itemsUpTo_of_readItem : ∀ (fuel : Nat) {ss rest : List Symbol} {items : DraftItems},
    readItem fuel ss = (items, some rest) → ∃ v vs, items = .more v vs ∧ ItemsUpTo true items ss rest
  | 0, _, _, _, h => by cases h
  | fuel + 1, ss, rest, items, h => by
    rw [readItem] at h
    split at h
    next => cases h
    next v next hvalue =>
      obtain ⟨lead, text, hlead, htext, rfl⟩ := textOf_of_readValue fuel hvalue
      obtain ⟨gap, hgap, hnext⟩ := exists_gap next
      suffices htail : ∃ vs, items = .more v vs ∧ ItemsUpTo false vs next rest by
        obtain ⟨vs, rfl, hvs⟩ := htail
        exact ⟨v, vs, rfl, .more hlead htext hvs⟩
      split at h
      next => cases h
      next heq =>
        obtain ⟨rfl, hrest⟩ := Prod.mk.inj h
        obtain rfl := Option.some.inj hrest
        exact ⟨_, rfl, [], gap, .stop, hgap, heq ▸ hnext⟩
      next behind heq =>
        obtain ⟨gap', hgap', hbehind⟩ := exists_gap behind
        split at h
        next => cases h
        next =>
          cases hread : readItem fuel (skipGap behind) with
          | mk vs r =>
            rw [hread] at h
            obtain ⟨rfl, rfl⟩ := Prod.mk.inj h
            obtain ⟨w, ws, rfl, hitems⟩ := itemsUpTo_of_readItem fuel hread
            refine ⟨_, rfl, ?_⟩
            rw [hnext, heq, hbehind]
            exact hitems.comma hgap hgap'
      next => cases h

theorem membersUpTo_of_readMembers : ∀ (fuel : Nat) {ss rest : List Symbol} {members : DraftMembers},
    readMembers fuel ss = (members, some rest) → MembersUpTo true members ss rest
  | 0, _, _, _, h => by cases h
  | fuel + 1, ss, rest, members, h => by
    rw [readMembers] at h
    obtain ⟨gap, hgap, hss⟩ := exists_gap ss
    split at h
    next => cases h
    next heq =>
      obtain ⟨rfl, hrest⟩ := Prod.mk.inj h
      obtain rfl := Option.some.inj hrest
      exact ⟨[], gap, .stop, hgap, heq ▸ hss⟩
    next =>
      obtain ⟨k, v, ms, rfl, hmembers⟩ := membersUpTo_of_readMember fuel h
      exact hss ▸ hmembers.afterGap hgap

theorem membersUpTo_of_readMember : ∀ (fuel : Nat) {ss rest : List Symbol} {members : DraftMembers},
    readMember fuel ss = (members, some rest) →
    ∃ k v ms, members = .more k v ms ∧ MembersUpTo true members ss rest
  | 0, _, _, _, h => by cases h
  | fuel + 1, ss, rest, members, h => by
    unfold readMember at h
    split at h
    next => cases h
    next ss =>
      split at h
      next => cases h
      next key behind hkey =>
        obtain ⟨ps, body, hbody, rfl, rfl⟩ := readBody_eq_iff.mp hkey
        obtain ⟨before, hbefore, hbehind⟩ := exists_gap behind
        split at h
        next => cases h
        next colon heq =>
          split at h
          next => cases h
          next v next hvalue =>
            obtain ⟨after, text, hafter, htext, rfl⟩ := textOf_of_readValue fuel hvalue
            obtain ⟨gap, hgap, hnext⟩ := exists_gap next
            suffices htail : ∃ ms, members = .more (stringOf ps) v ms ∧ MembersUpTo false ms next rest by
              obtain ⟨ms, rfl, hms⟩ := htail
              rw [hbehind, heq]
              have hlead : IsLeading true [] := gap_nil
              exact ⟨_, v, ms, rfl, .more hlead hbody hbefore hafter htext hms⟩
            split at h
            next => cases h
            next heq =>
              obtain ⟨rfl, hrest⟩ := Prod.mk.inj h
              obtain rfl := Option.some.inj hrest
              exact ⟨_, rfl, [], gap, .stop, hgap, heq ▸ hnext⟩
            next comma heq =>
              obtain ⟨gap', hgap', hcomma⟩ := exists_gap comma
              split at h
              next => cases h
              next =>
                cases hread : readMember fuel (skipGap comma) with
                | mk ms r =>
                  rw [hread] at h
                  obtain ⟨rfl, rfl⟩ := Prod.mk.inj h
                  obtain ⟨k, w, ws, rfl, hmembers⟩ := membersUpTo_of_readMember fuel hread
                  refine ⟨_, rfl, ?_⟩
                  rw [hnext, heq, hcomma]
                  exact hmembers.comma hgap hgap'
            next => cases h
        next => cases h
    next => cases h

end

/-! ### What stops cannot be passed over -/

theorem readWord_eq_none {leaf : Draft} {cs : List Char} (h : readWord leaf cs ss = (d, none)) : d.skip ≠ none := by
  fun_induction readWord leaf cs ss with
  | case1 => cases h
  | case2 | case4 => exact (Prod.mk.inj h).1 ▸ skip_broken _
  | case3 _ _ _ ih => exact ih h

theorem skip_more (d : Draft) (items : DraftItems) :
    (DraftItems.more d items).skip = none ↔ d.skip = none ∧ items.skip = none := by
  rw [DraftItems.skip]
  cases d.skip <;> simp

theorem skip_stop (f : Fault) : (DraftItems.stop (some f)).skip ≠ none := by
  rw [DraftItems.skip]
  exact Option.some_ne_none _

theorem skip_stop_members (f : Fault) : (DraftMembers.stop (some f)).skip ≠ none := by
  rw [DraftMembers.skip]
  exact Option.some_ne_none _

theorem skip_more_members (key : Except Unusable String) (d : Draft) (members : DraftMembers) :
    (DraftMembers.more key d members).skip = none ↔
      (∀ u, key = .error u → u.skipped = none) ∧ d.skip = none ∧ members.skip = none := by
  rcases key with ⟨used, _ | f⟩ | k <;> cases hd : d.skip <;> simp [DraftMembers.skip, hd]

theorem skip_head (h : d.skip ≠ none) (items : DraftItems) : (DraftItems.more d items).skip ≠ none :=
  fun hskip => h ((skip_more _ _).mp hskip).1

theorem skip_tail (d : Draft) (h : items.skip ≠ none) : (DraftItems.more d items).skip ≠ none :=
  fun hskip => h ((skip_more _ _).mp hskip).2

theorem skip_value (key : Except Unusable String) (h : d.skip ≠ none) (members : DraftMembers) :
    (DraftMembers.more key d members).skip ≠ none :=
  fun hskip => h ((skip_more_members _ _ _).mp hskip).2.1

theorem skip_members (key : Except Unusable String) (d : Draft) (h : members.skip ≠ none) :
    (DraftMembers.more key d members).skip ≠ none :=
  fun hskip => h ((skip_more_members _ _ _).mp hskip).2.2

mutual

/-- Where the reader stops, it says so. -/
theorem skip_of_readValue : ∀ (fuel : Nat) {ss : List Symbol} {d : Draft}, readValue fuel ss = (d, none) →
    d.skip ≠ none
  | 0, _, _, h => (Prod.mk.inj h).1 ▸ skip_broken _
  | fuel + 1, ss, d, h => by
    unfold readValue at h
    split at h
    next => exact (Prod.mk.inj h).1 ▸ skip_broken _
    next => exact readWord_eq_none h
    next => exact readWord_eq_none h
    next => exact readWord_eq_none h
    next => exact readNumber_eq_none h
    next =>
      split at h <;> obtain ⟨rfl, rfl⟩ := Prod.mk.inj h <;> next hbody =>
        obtain ⟨used, fault, hstop⟩ := readBody_eq_none hbody
        first
          | cases hstop
            exact Option.some_ne_none fault
          | cases hstop
    next =>
      obtain ⟨rfl, hrest⟩ := Prod.mk.inj h
      exact skip_of_readItems fuel (Prod.ext rfl hrest)
    next =>
      obtain ⟨rfl, hrest⟩ := Prod.mk.inj h
      exact skip_of_readMembers fuel (Prod.ext rfl hrest)
    next =>
      split at h
      · exact readNumber_eq_none h
      · exact (Prod.mk.inj h).1 ▸ skip_broken _

theorem skip_of_readItems : ∀ (fuel : Nat) {ss : List Symbol} {items : DraftItems}, readItems fuel ss = (items, none) →
    items.skip ≠ none
  | 0, _, _, h => (Prod.mk.inj h).1 ▸ skip_stop _
  | fuel + 1, ss, items, h => by
    unfold readItems at h
    split at h
    next => exact (Prod.mk.inj h).1 ▸ skip_stop _
    next => cases h
    next => exact skip_of_readItem fuel h

theorem skip_of_readItem : ∀ (fuel : Nat) {ss : List Symbol} {items : DraftItems}, readItem fuel ss = (items, none) →
    items.skip ≠ none
  | 0, _, _, h => (Prod.mk.inj h).1 ▸ skip_stop _
  | fuel + 1, ss, items, h => by
    unfold readItem at h
    split at h
    next hvalue =>
      obtain rfl := (Prod.mk.inj h).1
      exact skip_head (skip_of_readValue fuel hvalue) _
    next =>
      split at h
      next => exact (Prod.mk.inj h).1 ▸ skip_tail _ (skip_stop _)
      next => cases h
      next =>
        split at h
        next => exact (Prod.mk.inj h).1 ▸ skip_tail _ (skip_stop _)
        next =>
          obtain ⟨rfl, hrest⟩ := Prod.mk.inj h
          exact skip_tail _ (skip_of_readItem fuel (Prod.ext rfl hrest))
      next => exact (Prod.mk.inj h).1 ▸ skip_tail _ (skip_stop _)

theorem skip_of_readMembers : ∀ (fuel : Nat) {ss : List Symbol} {members : DraftMembers},
    readMembers fuel ss = (members, none) → members.skip ≠ none
  | 0, _, _, h => (Prod.mk.inj h).1 ▸ skip_stop_members _
  | fuel + 1, ss, members, h => by
    unfold readMembers at h
    split at h
    next => exact (Prod.mk.inj h).1 ▸ skip_stop_members _
    next => cases h
    next => exact skip_of_readMember fuel h

theorem skip_of_readMember : ∀ (fuel : Nat) {ss : List Symbol} {members : DraftMembers},
    readMember fuel ss = (members, none) → members.skip ≠ none
  | 0, _, _, h => (Prod.mk.inj h).1 ▸ skip_stop_members _
  | fuel + 1, ss, members, h => by
    unfold readMember at h
    split at h
    next => exact (Prod.mk.inj h).1 ▸ skip_stop_members _
    next =>
      split at h
      next hkey =>
        obtain ⟨used, fault, rfl⟩ := readBody_eq_none hkey
        obtain rfl := (Prod.mk.inj h).1
        exact fun hskip => Option.some_ne_none _ (((skip_more_members _ _ _).mp hskip).1 _ rfl)
      next =>
        split at h
        next => exact (Prod.mk.inj h).1 ▸ skip_value _ (skip_broken _) _
        next =>
          split at h
          next hvalue =>
            obtain rfl := (Prod.mk.inj h).1
            exact skip_value _ (skip_of_readValue fuel hvalue) _
          next =>
            split at h
            next => exact (Prod.mk.inj h).1 ▸ skip_members _ _ (skip_stop_members _)
            next => cases h
            next =>
              split at h
              next => exact (Prod.mk.inj h).1 ▸ skip_members _ _ (skip_stop_members _)
              next =>
                obtain ⟨rfl, hrest⟩ := Prod.mk.inj h
                exact skip_members _ _ (skip_of_readMember fuel (Prod.ext rfl hrest))
            next => exact (Prod.mk.inj h).1 ▸ skip_members _ _ (skip_stop_members _)
        next => exact (Prod.mk.inj h).1 ▸ skip_value _ (skip_broken _) _
    next => exact (Prod.mk.inj h).1 ▸ skip_stop_members _

end

/-! ### Whole texts -/

theorem endsNumber_nil : EndsNumber [] := fun _ hs => nomatch hs

theorem Gap.endsNumber (h : Gap gap) : EndsNumber (gap.map some) := by
  cases gap with
  | nil => exact endsNumber_nil
  | cons c gap =>
      intro s hs
      obtain rfl : some c = s := Option.some.inj hs
      have hc := h c List.mem_cons_self
      simp only [isGap, Bool.or_eq_true, decide_eq_true_eq, Option.some.injEq] at hc
      rcases hc with ((rfl | rfl) | rfl) | rfl <;> decide

/-- What the reader makes of a whole text that can be passed over: the tree of which it is a text. -/
theorem readSymbols_eq_iff : readSymbols ss = ⟨d, none⟩ ∧ d.skip = none ↔ Document d ss := by
  constructor
  · rintro ⟨h, hskip⟩
    rw [readSymbols] at h
    split at h
    next d' hread =>
      obtain rfl : d' = d := congrArg Reading.draft h
      exact absurd hskip (skip_of_readValue _ hread)
    next d' rest hread =>
      obtain rfl : d' = d := congrArg Reading.draft h
      have htrailing : skipGap rest = [] := by
        by_contra hne
        have := congrArg Reading.trailing h
        simp [hne] at this
      obtain ⟨before, text, hbefore, htext, rfl⟩ := textOf_of_readValue _ hread
      obtain ⟨behind, hbehind, hrest⟩ := exists_gap rest
      rw [htrailing, List.append_nil] at hrest
      exact ⟨before, text, behind, hbefore, htext, hbehind, hrest ▸ rfl⟩
  · rintro ⟨before, text, behind, hbefore, htext, hbehind, rfl⟩
    refine ⟨?_, htext.skip⟩
    have hread := readValue_of_textOf htext (3 * (before.map some ++ (text ++ behind.map some)).length + 3)
      (by simp; omega) hbehind.endsNumber
    have hrest := skipGap_append hbehind []
    rw [List.append_nil] at hrest
    rw [readSymbols, readValue_gap hbefore, hread]
    exact congrArg (Reading.mk d) (if_pos hrest)

theorem Document.unique {d' : Draft} (h : Document d ss) (h' : Document d' ss) : d = d' := by
  have hread := (readSymbols_eq_iff.mpr h).1
  rw [(readSymbols_eq_iff.mpr h').1] at hread
  exact (congrArg Reading.draft hread).symm

end SignOn.Json
