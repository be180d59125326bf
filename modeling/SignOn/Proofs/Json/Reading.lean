import SignOn.Proofs.Json.Acceptance

/-! # Reading what has been written

A JSON value has many texts, which differ in the gaps between their parts.

* `Spells v cs` says that `cs` is a text of `v`.  What the printer makes is one (`spells_pretty`,
  `spells_compact`).
* `Json.draft` is the tree that the reader makes of every text of a value, provided its numbers are
  such that their texts are read back (`Number.ReadsBack`).
* `Spells.textOf` puts these texts under the grammar, and `readSymbols_spells` is what the reader makes of one. -/

namespace SignOn

open Text (Symbol)

/-! ### Drafts of values -/

mutual

/-- The tree of a complete text of a value. -/
def Json.draft : Json → Draft
  | .null => .null
  | .bool b => .bool b
  | .number n => .number n
  | .string s => .string s
  | .array vs => .array vs.draft
  | .object ms => .object ms.draft

/-- The tree of complete texts of items. -/
def JsonItems.draft : JsonItems → DraftItems
  | .nil => .stop none
  | .cons v vs => .more v.draft vs.draft

/-- The tree of complete texts of members. -/
def JsonMembers.draft : JsonMembers → DraftMembers
  | .nil => .stop none
  | .cons k v ms => .more (.ok k) v.draft ms.draft

end

/-- A number whose text is read as that number, whatever follows it. -/
def Number.ReadsBack (n : Number) : Prop :=
  (∃ c cs, (Json.numberText n).toList = c :: cs ∧ (c = '-' ∨ c.isDigit = true)) ∧
    ∀ fuel rest, Json.EndsNumber rest →
      Json.readValue (fuel + 1) ((Json.numberText n).toList.map some ++ rest) =
        (.number n, some rest)

mutual

/-- The numbers of the value are in `N`. -/
def Json.NumbersIn (N : Number → Prop) : Json → Prop
  | .number n => N n
  | .array vs => vs.NumbersIn N
  | .object ms => ms.NumbersIn N
  | _ => True

/-- The numbers of the items are in `N`. -/
def JsonItems.NumbersIn (N : Number → Prop) : JsonItems → Prop
  | .nil => True
  | .cons v vs => v.NumbersIn N ∧ vs.NumbersIn N

/-- The numbers of the members are in `N`. -/
def JsonMembers.NumbersIn (N : Number → Prop) : JsonMembers → Prop
  | .nil => True
  | .cons _ v ms => v.NumbersIn N ∧ ms.NumbersIn N

end

mutual

/-- The numbers of the value are in `N`, and the keys of each object ascend. -/
def Json.Regular (N : Number → Prop) : Json → Prop
  | .number n => N n
  | .array vs => vs.Regular N
  | .object ms => ms.Regular N
  | _ => True

def JsonItems.Regular (N : Number → Prop) : JsonItems → Prop
  | .nil => True
  | .cons v vs => v.Regular N ∧ vs.Regular N

/-- Members that are all regular and whose keys ascend. -/
def JsonMembers.Regular (N : Number → Prop) : JsonMembers → Prop
  | .nil => True
  | .cons k v ms => (∀ m ∈ ms.toList, k < m.1) ∧ v.Regular N ∧ ms.Regular N

end

mutual

theorem Json.Regular.numbersIn {N : Number → Prop} : ∀ {v : Json}, v.Regular N → v.NumbersIn N
  | .null, _ | .bool _, _ | .string _, _ => trivial
  | .number _, hv => hv
  | .array _, hv => JsonItems.Regular.numbersIn hv
  | .object _, hv => JsonMembers.Regular.numbersIn hv

theorem JsonItems.Regular.numbersIn {N : Number → Prop} : ∀ {vs : JsonItems}, vs.Regular N → vs.NumbersIn N
  | .nil, _ => trivial
  | .cons _ _, hvs => ⟨Json.Regular.numbersIn hvs.1, JsonItems.Regular.numbersIn hvs.2⟩

theorem JsonMembers.Regular.numbersIn {N : Number → Prop} : ∀ {ms : JsonMembers}, ms.Regular N → ms.NumbersIn N
  | .nil, _ => trivial
  | .cons _ _ _, hms => ⟨Json.Regular.numbersIn hms.2.1, JsonMembers.Regular.numbersIn hms.2.2⟩

end

mutual

theorem Json.NumbersIn.mono {N M : Number → Prop} (h : ∀ n, N n → M n) : ∀ {v : Json}, v.NumbersIn N → v.NumbersIn M
  | .null, _ | .bool _, _ | .string _, _ => trivial
  | .number n, hv => h n hv
  | .array _, hv => JsonItems.NumbersIn.mono h hv
  | .object _, hv => JsonMembers.NumbersIn.mono h hv

theorem JsonItems.NumbersIn.mono {N M : Number → Prop} (h : ∀ n, N n → M n) :
    ∀ {vs : JsonItems}, vs.NumbersIn N → vs.NumbersIn M
  | .nil, _ => trivial
  | .cons _ _, hvs => ⟨Json.NumbersIn.mono h hvs.1, JsonItems.NumbersIn.mono h hvs.2⟩

theorem JsonMembers.NumbersIn.mono {N M : Number → Prop} (h : ∀ n, N n → M n) :
    ∀ {ms : JsonMembers}, ms.NumbersIn N → ms.NumbersIn M
  | .nil, _ => trivial
  | .cons _ _ _, hms => ⟨Json.NumbersIn.mono h hms.1, JsonMembers.NumbersIn.mono h hms.2⟩

end

namespace Json

/-! ### Texts of values -/

mutual

/-- The text is one of the value. -/
def Spells : Json → List Char → Prop
  | .array vs, cs => ∃ inner gap, SpellsItems true vs inner ∧ Gap gap ∧ cs = '[' :: inner ++ gap ++ [']']
  | .object ms, cs =>
    ∃ inner gap, SpellsMembers true ms inner ∧ Gap gap ∧ cs = '\x7b' :: inner ++ gap ++ ['\x7d']
  | .null, cs => cs = scalarChars .null
  | .bool b, cs => cs = scalarChars (.bool b)
  | .number n, cs => cs = scalarChars (.number n)
  | .string s, cs => cs = scalarChars (.string s)

/-- The text is one of the items, with a comma before each but the first. -/
def SpellsItems (first : Bool) : JsonItems → List Char → Prop
  | .nil, cs => cs = []
  | .cons v vs, cs =>
    ∃ gap item tail, Gap gap ∧ Spells v item ∧ SpellsItems false vs tail ∧
      cs = (if first then [] else [',']) ++ gap ++ item ++ tail

/-- The text is one of the members, with a comma before each but the first. -/
def SpellsMembers (first : Bool) : JsonMembers → List Char → Prop
  | .nil, cs => cs = []
  | .cons k v ms, cs =>
    ∃ gap between item tail, Gap gap ∧ Gap between ∧ Spells v item ∧ SpellsMembers false ms tail ∧
      cs = (if first then [] else [',']) ++ gap ++ quoteChars k ++ ':' :: between ++ item ++ tail

end

/-! ### The printer's texts -/

theorem gap_lineBreak (level : Nat) : Gap (lineBreak level) := by
  intro c hc
  rcases List.mem_cons.mp hc with rfl | hc
  · rfl
  · rw [List.eq_of_mem_replicate hc]
    rfl

mutual

theorem spells_compactChars : ∀ v, Spells v (compactChars v)
  | .null | .bool _ | .number _ | .string _ => rfl
  | .array vs => ⟨compactItems true vs, [], spells_compactItems true vs, gap_nil, by simp [compactChars]⟩
  | .object ms =>
    ⟨compactMembers true ms, [], spells_compactMembers true ms, gap_nil, by simp [compactChars]⟩

theorem spells_compactItems (first : Bool) : ∀ vs, SpellsItems first vs (compactItems first vs)
  | .nil => rfl
  | .cons v vs =>
    ⟨[], compactChars v, compactItems false vs, gap_nil, spells_compactChars v,
      spells_compactItems false vs, by simp [compactItems]⟩

theorem spells_compactMembers (first : Bool) : ∀ ms, SpellsMembers first ms (compactMembers first ms)
  | .nil => rfl
  | .cons k v ms =>
    ⟨[], [], compactChars v, compactMembers false ms, gap_nil, gap_nil, spells_compactChars v,
      spells_compactMembers false ms, by simp [compactMembers]⟩

end

mutual

theorem spells_prettyChars (level : Nat) : ∀ v, Spells v (prettyChars level v)
  | .null | .bool _ | .number _ | .string _ => rfl
  | .array .nil => ⟨[], [], rfl, gap_nil, rfl⟩
  | .array (.cons v vs) =>
    ⟨prettyItems (level + 1) true (.cons v vs), lineBreak level,
      spells_prettyItems (level + 1) true (.cons v vs), gap_lineBreak level, by simp [prettyChars]⟩
  | .object .nil => ⟨[], [], rfl, gap_nil, rfl⟩
  | .object (.cons k v ms) =>
    ⟨prettyMembers (level + 1) true (.cons k v ms), lineBreak level,
      spells_prettyMembers (level + 1) true (.cons k v ms), gap_lineBreak level, by simp [prettyChars]⟩

theorem spells_prettyItems (level : Nat) (first : Bool) :
    ∀ vs, SpellsItems first vs (prettyItems level first vs)
  | .nil => rfl
  | .cons v vs =>
    ⟨lineBreak level, prettyChars level v, prettyItems level false vs, gap_lineBreak level,
      spells_prettyChars level v, spells_prettyItems level false vs, by simp [prettyItems]⟩

theorem spells_prettyMembers (level : Nat) (first : Bool) :
    ∀ ms, SpellsMembers first ms (prettyMembers level first ms)
  | .nil => rfl
  | .cons k v ms =>
    ⟨lineBreak level, [' '], prettyChars level v, prettyMembers level false ms, gap_lineBreak level,
      by simp [Gap, isGap], spells_prettyChars level v, spells_prettyMembers level false ms,
      by simp [prettyMembers]⟩

end

/-! ### Reading texts of values -/

theorem textOf_of_readsBack {n : Number} (h : n.ReadsBack) :
    TextOf (.number n) ((numberText n).toList.map some) := by
  obtain ⟨⟨c, cs, hcs, hc⟩, hread⟩ := h
  have hfirst : isGap (some c) = false := by
    rcases hc with rfl | hc
    · rfl
    · exact isGap_of_isDigit hc
  obtain ⟨gap, text, hgap, htext, heq⟩ := textOf_of_readValue 1 (hread 0 [] endsNumber_nil)
  rw [List.append_nil, List.append_nil] at heq
  cases gap with
  | nil => exact heq ▸ htext
  | cons d gap =>
      rw [hcs] at heq
      obtain rfl : c = d := Option.some.inj (List.cons.inj heq).1
      cases hfirst.symm.trans (hgap c List.mem_cons_self)

theorem bodyOf_quoted (s : String) :
    ∃ ps, BodyOf ps ((s.toList.flatMap quoteChar).map some) ∧ stringOf ps = .ok s := by
  obtain ⟨ps, body, hbody, hss, hok⟩ := readBody_eq_iff.mp (readBody_quoted s [])
  exact ⟨ps, List.append_cancel_right hss ▸ hbody, hok.symm⟩

theorem isLeading_gap {gap : List Char} (h : Gap gap) (first : Bool) :
    IsLeading first ((if first then [] else [',']) ++ gap) := by
  cases first with
  | true => exact h
  | false => exact ⟨[], gap, gap_nil, h, rfl⟩

mutual

/-- A text of a value is one of its tree. -/
theorem Spells.textOf : ∀ (v : Json), v.NumbersIn Number.ReadsBack → ∀ {cs : List Char}, Spells v cs →
    TextOf v.draft (cs.map some)
  | .null, _, _, rfl => .null
  | .bool true, _, _, rfl => .yes
  | .bool false, _, _, rfl => .no
  | .number n, hv, _, rfl => textOf_of_readsBack hv
  | .string s, _, _, rfl => by
    obtain ⟨ps, hbody, hps⟩ := bodyOf_quoted s
    have htext := TextOf.string hbody
    rw [stringLeaf, hps] at htext
    simpa [scalarChars, quoteChars, draft] using htext
  | .array vs, hv, _, ⟨inner, gap, hinner, hgap, hcs⟩ => by
    rw [hcs, draft]
    simpa using TextOf.array (SpellsItems.textOf vs hv hinner) hgap
  | .object ms, hv, _, ⟨inner, gap, hinner, hgap, hcs⟩ => by
    rw [hcs, draft]
    simpa using TextOf.object (SpellsMembers.textOf ms hv hinner) hgap

theorem SpellsItems.textOf : ∀ (vs : JsonItems), vs.NumbersIn Number.ReadsBack → ∀ {first : Bool} {cs : List Char},
    SpellsItems first vs cs → ItemsTextOf first vs.draft (cs.map some)
  | .nil, _, _, _, rfl => .stop
  | .cons v vs, hv, first, _, ⟨gap, item, tail, hgap, hitem, htail, hcs⟩ => by
    rw [hcs, JsonItems.draft]
    simpa using ItemsTextOf.more (isLeading_gap hgap first) (Spells.textOf v hv.1 hitem)
      (SpellsItems.textOf vs hv.2 htail)

theorem SpellsMembers.textOf : ∀ (ms : JsonMembers), ms.NumbersIn Number.ReadsBack →
    ∀ {first : Bool} {cs : List Char}, SpellsMembers first ms cs → MembersTextOf first ms.draft (cs.map some)
  | .nil, _, _, _, rfl => .stop
  | .cons k v ms, hv, first, _, ⟨gap, between, item, tail, hgap, hbetween, hitem, htail, hcs⟩ => by
    obtain ⟨ps, hbody, hps⟩ := bodyOf_quoted k
    have hmore := MembersTextOf.more (isLeading_gap hgap first) hbody gap_nil hbetween
      (Spells.textOf v hv.1 hitem) (SpellsMembers.textOf ms hv.2 htail)
    rw [hcs, JsonMembers.draft, ← hps]
    simpa [memberStart, quoteChars] using hmore

end

/-- A whole text of a value is read as that value, with nothing behind it. -/
theorem readSymbols_spells {v : Json} (hv : v.NumbersIn Number.ReadsBack) {cs : List Char}
    (h : Spells v cs) : readSymbols (cs.map some) = ⟨v.draft, none⟩ :=
  (readSymbols_eq_iff.mpr ⟨[], cs.map some, [], gap_nil, h.textOf v hv, gap_nil, by simp⟩).1

theorem symbols_ofList (cs : List Char) : Text.symbols (String.ofList cs) = cs.map some := by
  rw [Text.symbols, String.toList_ofList]

theorem readText_spells {v : Json} (hv : v.NumbersIn Number.ReadsBack) {cs : List Char} (h : Spells v cs) :
    readText (String.ofList cs) = ⟨v.draft, none⟩ := by
  rw [readText, symbols_ofList, readSymbols_spells hv h]

end Json

/-! ### Integers -/

namespace Json

theorem integerLeaf_neg {n : Nat} (hpos : 0 < n) (hn : n ≤ 0x8000000000000000) :
    integerLeaf true n = .number (.int (-n)) := by
  rw [integerLeaf, if_neg (by decide), if_neg (by omega)]

theorem toDigits_isDigit {n : Nat} {c : Char} (hc : c ∈ Nat.toDigits 10 n) : c.isDigit = true :=
  Nat.isDigit_of_mem_toDigits (by decide) (by decide) hc

end Json

/-- An integer of 64 bits, with a sign or without. -/
def Number.IsInteger : Number → Prop
  | .int i => -0x8000000000000000 ≤ i ∧ i < 0x10000000000000000
  | .float _ => False

theorem Number.IsInteger.readsBack {n : Number} (h : n.IsInteger) : n.ReadsBack := by
  cases n with
  | float bits => exact h.elim
  | int i =>
      obtain ⟨hlow, hhigh⟩ := h
      cases i with
      | ofNat n =>
          have htext : (Json.numberText (.int (Int.ofNat n))).toList = Nat.toDigits 10 n := by
            simp [Json.numberText, toString, Int.repr, Nat.repr]
          obtain ⟨c, cs, hcs⟩ := List.exists_cons_of_ne_nil (Nat.toDigits_ne_nil (n := n) (b := 10))
          have hc : c.isDigit = true := Json.toDigits_isDigit (hcs ▸ List.mem_cons_self)
          rw [ReadsBack, htext]
          refine ⟨⟨c, cs, hcs, .inr hc⟩, fun fuel rest hrest => ?_⟩
          have hn : n < 0x10000000000000000 := Int.ofNat_lt.mp hhigh
          have hread := Json.readNumber_toDigits false hn hrest
          rw [hcs] at hread ⊢
          exact (Json.readValue_digit fuel hc _).trans hread
      | negSucc n =>
          have htext : (Json.numberText (.int (Int.negSucc n))).toList = '-' :: Nat.toDigits 10 (n + 1) := by
            simp [Json.numberText, toString, Int.repr, Nat.repr]
          rw [ReadsBack, htext]
          refine ⟨⟨'-', _, rfl, .inl rfl⟩, fun fuel rest hrest => ?_⟩
          have hread := Json.readNumber_toDigits true (n := n + 1) (by omega) hrest
          rw [Json.integerLeaf_neg (by omega) (by omega)] at hread
          exact hread

end SignOn
