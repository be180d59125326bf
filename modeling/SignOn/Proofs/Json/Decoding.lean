import Mathlib.Data.String.Basic
import SignOn.Json.Decode
import SignOn.Proofs.Json.Reading

/-! # Decoding what has been written

* **Order.**  Members that come in the order of their keys are entered one behind the other
  (`toList_foldl_insert`), so entering them gives them back (`foldl_insert_toList`).
* **Depth.**  `Json.depth` counts the levels of a value; `value_draft` gives back every value that is
  regular and not deeper than the decoder may descend, and `value_draft_of_lt` is about deeper ones. -/

namespace SignOn

mutual

/-- Levels of arrays and objects of a value. -/
def Json.depth : Json → Nat
  | .array vs => vs.depth + 1
  | .object ms => ms.depth + 1
  | _ => 0

def JsonItems.depth : JsonItems → Nat
  | .nil => 0
  | .cons v vs => max v.depth vs.depth

/-- Levels of the deepest member. -/
def JsonMembers.depth : JsonMembers → Nat
  | .nil => 0
  | .cons _ v ms => max v.depth ms.depth

end

/-! ### Lists of items and members -/

@[simp] theorem JsonItems.ofList_toList (vs : JsonItems) : ofList vs.toList = vs := by
  cases vs with
  | nil => rfl
  | cons v vs => rw [toList, ofList, ofList_toList vs]

@[simp] theorem JsonMembers.ofList_toList (ms : JsonMembers) : ofList ms.toList = ms := by
  cases ms with
  | nil => rfl
  | cons k v ms => rw [toList, ofList, ofList_toList ms]

theorem JsonMembers.toList_insert {k : String} {v : Json} : ∀ {ms : JsonMembers},
    (∀ m ∈ ms.toList, m.1 < k) → (ms.insert k v).toList = ms.toList ++ [(k, v)]
  | .nil, _ => rfl
  | .cons k' v' ms, h => by
    have hk : k' < k := h (k', v') List.mem_cons_self
    have ih := toList_insert (v := v) fun m hm => h m (List.mem_cons_of_mem _ hm)
    rw [insert, if_neg hk.asymm, if_neg hk.ne', toList, toList, ih, List.cons_append]

/-! ### Regular values -/

variable {N : Number → Prop}

theorem JsonMembers.Regular.of_mem : ∀ {ms : JsonMembers}, ms.Regular N → ∀ m ∈ ms.toList, m.2.Regular N
  | .nil, _, _, hm => nomatch hm
  | .cons _ _ _, hms, _, hm => by
    rcases List.mem_cons.mp hm with rfl | hm
    · exact hms.2.1
    · exact of_mem hms.2.2 _ hm

/-- Members that come in ascending order are entered one behind the other. -/
theorem JsonMembers.toList_foldl_insert : ∀ {ms : JsonMembers}, ms.Regular N → ∀ acc : JsonMembers,
    (∀ m ∈ acc.toList, ∀ m' ∈ ms.toList, m.1 < m'.1) →
    (ms.toList.foldl (fun acc m => acc.insert m.1 m.2) acc).toList = acc.toList ++ ms.toList
  | .nil, _, acc, _ => (List.append_nil _).symm
  | .cons k v ms, hms, acc, hacc => by
    have hins := toList_insert (v := v) fun m hm => hacc m hm (k, v) List.mem_cons_self
    have hbelow : ∀ m ∈ (acc.insert k v).toList, ∀ m' ∈ ms.toList, m.1 < m'.1 := by
      intro m hm m' hm'
      rw [hins] at hm
      rcases List.mem_append.mp hm with hm | hm
      · exact hacc m hm m' (List.mem_cons_of_mem _ hm')
      · rw [List.mem_singleton.mp hm]
        exact hms.1 m' hm'
    rw [toList, List.foldl_cons, toList_foldl_insert hms.2.2 _ hbelow, hins, List.append_assoc, List.singleton_append]

/-- Regular members are what comes of entering them. -/
theorem JsonMembers.foldl_insert_toList {ms : JsonMembers} (h : ms.Regular N) :
    ms.toList.foldl (fun acc m => acc.insert m.1 m.2) .nil = ms := by
  have hlist := toList_foldl_insert h .nil fun _ hm => (nomatch hm)
  rw [← ofList_toList (ms.toList.foldl _ _), hlist]
  exact ofList_toList ms

namespace Json

mutual

/-- A value is decoded from its draft. -/
theorem value_draft : ∀ {v : Json}, v.Regular N → ∀ {depth : Nat}, v.depth ≤ depth →
    value depth v.draft = .ok v
  | .null, _, _, _ | .bool _, _, _, _ | .number _, _, _, _ | .string _, _, _, _ => by
    simp only [draft, value]
  | .array vs, hv, depth, hd => by
    obtain ⟨depth, rfl⟩ : ∃ k, depth = k + 1 :=
      Nat.exists_eq_add_of_le' (by simp only [Json.depth] at hd; omega)
    have hvs : valueItems depth vs.draft = .ok vs := valueItems_draft hv (Nat.le_of_succ_le_succ hd)
    rw [draft, value, hvs]
    rfl
  | .object ms, hv, depth, hd => by
    obtain ⟨depth, rfl⟩ : ∃ k, depth = k + 1 :=
      Nat.exists_eq_add_of_le' (by simp only [Json.depth] at hd; omega)
    have hms : valueMembers depth .nil ms.draft = _ := valueMembers_draft hv (Nat.le_of_succ_le_succ hd) .nil
    rw [JsonMembers.foldl_insert_toList hv] at hms
    rw [draft, value, hms]
    rfl

theorem valueItems_draft : ∀ {vs : JsonItems}, vs.Regular N → ∀ {depth : Nat}, vs.depth ≤ depth →
    valueItems depth vs.draft = .ok vs
  | .nil, _, _, _ => by simp only [JsonItems.draft, valueItems]
  | .cons v vs, hvs, depth, hd => by
    have hv := value_draft hvs.1 (Nat.le_trans (Nat.le_max_left v.depth vs.depth) hd)
    have hvs := valueItems_draft hvs.2 (Nat.le_trans (Nat.le_max_right v.depth vs.depth) hd)
    simp only [JsonItems.draft, valueItems, hv, hvs]
    rfl

theorem valueMembers_draft : ∀ {ms : JsonMembers}, ms.Regular N → ∀ {depth : Nat}, ms.depth ≤ depth →
    ∀ acc : JsonMembers, valueMembers depth acc ms.draft = .ok (ms.toList.foldl (fun acc m => acc.insert m.1 m.2) acc)
  | .nil, _, depth, _, acc => by simp only [JsonMembers.draft, valueMembers, JsonMembers.toList, List.foldl_nil]
  | .cons k v ms, hms, depth, hd, acc => by
    have hv := value_draft hms.2.1 (Nat.le_trans (Nat.le_max_left v.depth ms.depth) hd)
    have hms := valueMembers_draft hms.2.2 (Nat.le_trans (Nat.le_max_right v.depth ms.depth) hd) (acc.insert k v)
    simp only [JsonMembers.draft, valueMembers, hv, hms, JsonMembers.toList, List.foldl_cons]

end

theorem itemsOf_draft {depth : Nat} : ∀ {vs : JsonItems}, vs.Regular N → vs.depth ≤ depth →
    itemsOf (value depth) vs.draft = .ok vs.toList
  | .nil, _, _ => by simp only [JsonItems.draft, itemsOf, JsonItems.toList]
  | .cons v vs, hvs, hd => by
    have hv := value_draft hvs.1 (Nat.le_trans (Nat.le_max_left v.depth vs.depth) hd)
    have ih := itemsOf_draft hvs.2 (Nat.le_trans (Nat.le_max_right v.depth vs.depth) hd)
    simp only [JsonItems.draft, itemsOf, hv, ih, JsonItems.toList]
    rfl

mutual

/-- A value that is deeper than the decoder may descend is not decoded. -/
theorem value_draft_of_lt : ∀ {v : Json} {depth : Nat}, depth < v.depth → ∃ e, value depth v.draft = .error e
  | .null, _, hd | .bool _, _, hd | .number _, _, hd | .string _, _, hd => absurd hd (Nat.not_lt_zero _)
  | .array vs, 0, _ => ⟨.fault .malformed, by simp only [draft, value]⟩
  | .array vs, depth + 1, hd => by
    obtain ⟨e, he⟩ := @valueItems_draft_of_lt vs depth (Nat.lt_of_succ_lt_succ hd)
    exact ⟨e, by rw [draft, value, he]; rfl⟩
  | .object ms, 0, _ => ⟨.fault .malformed, by simp only [draft, value]⟩
  | .object ms, depth + 1, hd => by
    obtain ⟨e, he⟩ := @valueMembers_draft_of_lt ms depth (Nat.lt_of_succ_lt_succ hd) .nil
    exact ⟨e, by rw [draft, value, he]; rfl⟩

theorem valueItems_draft_of_lt : ∀ {vs : JsonItems} {depth : Nat}, depth < vs.depth →
    ∃ e, valueItems depth vs.draft = .error e
  | .nil, _, hd => absurd hd (Nat.not_lt_zero _)
  | .cons v vs, depth, hd => by
    simp only [JsonItems.draft, valueItems]
    rcases lt_max_iff.mp hd with hd | hd
    · obtain ⟨e, he⟩ := value_draft_of_lt hd
      exact ⟨e, by rw [he]⟩
    · obtain ⟨e, he⟩ := valueItems_draft_of_lt hd
      rw [he]
      cases value depth v.draft <;> exact ⟨_, rfl⟩

theorem valueMembers_draft_of_lt : ∀ {ms : JsonMembers} {depth : Nat}, depth < ms.depth →
    ∀ acc : JsonMembers, ∃ e, valueMembers depth acc ms.draft = .error e
  | .nil, _, hd, _ => absurd hd (Nat.not_lt_zero _)
  | .cons k v ms, depth, hd, acc => by
    simp only [JsonMembers.draft, valueMembers]
    rcases lt_max_iff.mp hd with hd | hd
    · obtain ⟨e, he⟩ := value_draft_of_lt hd
      exact ⟨e, by rw [he]⟩
    · cases value depth v.draft with
      | error e => exact ⟨e, rfl⟩
      | ok u => exact valueMembers_draft_of_lt hd (acc.insert k u)

end

theorem itemsOf_draft_of_lt {depth : Nat} : ∀ {vs : JsonItems}, depth < vs.depth →
    ∃ e, itemsOf (value depth) vs.draft = .error e
  | .nil, hd => absurd hd (Nat.not_lt_zero _)
  | .cons v vs, hd => by
    simp only [JsonItems.draft, itemsOf]
    rcases lt_max_iff.mp hd with hd | hd
    · obtain ⟨e, he⟩ := value_draft_of_lt hd
      exact ⟨e, by rw [he]⟩
    · obtain ⟨e, he⟩ := itemsOf_draft_of_lt hd
      rw [he]
      cases value depth v.draft <;> exact ⟨_, rfl⟩

theorem sequence_draft {vs : JsonItems} (hvs : vs.Regular N) {depth : Nat} (hd : vs.depth ≤ depth) :
    sequence value (depth + 1) (.array vs.draft) = .ok vs.toList :=
  itemsOf_draft hvs hd

theorem sequence_draft_of_lt {vs : JsonItems} {depth : Nat} (hd : depth < vs.depth) :
    ∃ e, sequence value (depth + 1) (.array vs.draft) = .error e :=
  itemsOf_draft_of_lt hd

/-! ### Whole texts -/

theorem decodeReading_eq_ok_iff {α : Type} {item : Decoder α} {r : Reading} {a : α} :
    decodeReading item r = .ok a ↔ ∃ d, r = ⟨d, none⟩ ∧ item maxDepth d = .ok a := by
  rw [decodeReading]
  obtain ⟨d, trailing⟩ := r
  cases hd : item maxDepth d with
  | error e => simp [hd]
  | ok a => cases trailing <;> simp [hd]

end Json

end SignOn
