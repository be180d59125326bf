import SignOn.Proofs.Parents
import SignOn.Proofs.TokenLogins

/-! # Where dotted paths lead

* **Segments.**  `Json.IsSegments` cuts a path at each of its dots.  There is one way to do so (`isSegments_iff`), and
  around a dot the segments are those of both sides (`segments_append`).
* **Ways.**  `Json.LeadsTo` goes from a value to one of its members, from there to a member of that one, and so on.
  Following keys finds just where they lead to (`follow_eq_some_iff`), and more keys go on from there
  (`follow_append`).
* `Json.lookup_dotted` says this of paths, with segments that are empty left out.  The token of an answer is found in
  this way (`Provider.tokenOf_eq_some_iff_leadsTo`). -/

namespace SignOn

namespace JsonMembers

theorem get?_eq_lookup (key : String) (ms : JsonMembers) : ms.get? key = ms.toList.lookup key := by
  cases ms with
  | nil => rfl
  | cons k v ms =>
      have ih := get?_eq_lookup key ms
      rw [get?, toList, List.lookup_cons, ih]
      by_cases hk : k = key
      · simp [hk]
      · have hother : (key == k) = false := beq_eq_false_iff_ne.mpr (Ne.symm hk)
        rw [if_neg hk, hother]

theorem get?_eq_some_iff {key : String} {x : Json} {ms : JsonMembers} :
    ms.get? key = some x ↔
      ∃ before after, ms.toList = before ++ (key, x) :: after ∧ ∀ m ∈ before, m.1 ≠ key := by
  rw [get?_eq_lookup, List.lookup_eq_some_iff]
  simp only [bne_iff_ne, ne_comm]

end JsonMembers

namespace Json

/-! ### Segments of a path -/

/-- The segments of a path: what stands between its dots. -/
structure IsSegments (path : String) (segments : List String) : Prop where
  ne_nil : segments ≠ []
  joined : Text.join "." segments = path
  no_dot : ∀ segment ∈ segments, '.' ∉ segment.toList

/-- A path has its segments, and no others. -/
theorem isSegments_iff {path : String} {segments : List String} :
    IsSegments path segments ↔ segments = Text.split path '.' := by
  constructor
  · rintro ⟨hne, rfl, hdot⟩
    rw [Text.split, Text.splitAt_join rfl hne hdot, List.map_map]
    exact (List.map_id'' (fun s => String.ofList_toList) segments).symm
  · rintro rfl
    refine ⟨?_, ?_, ?_⟩
    · simpa [Text.split] using Text.splitAt_ne_nil '.' path.toList
    · apply String.toList_inj.mp
      have hchars : (Text.split path '.').map String.toList = Text.splitAt '.' path.toList := by
        simp [Text.split, Function.comp_def]
      rw [Text.toList_join, hchars]
      exact Text.intercalate_splitAt '.' path.toList
    · intro segment hsegment
      obtain ⟨cs, hcs, rfl⟩ := List.mem_map.mp hsegment
      rw [String.toList_ofList]
      exact Text.not_mem_of_mem_splitAt hcs

/-- The segments of a path that count. -/
def segments (path : String) : List String :=
  (Text.split path '.').filter (· ≠ "")

theorem segments_append (p q : String) : segments (p ++ "." ++ q) = segments p ++ segments q := by
  have hchars : (p ++ "." ++ q).toList = p.toList ++ '.' :: q.toList := by
    rw [String.toList_append, String.toList_append, List.append_assoc]
    rfl
  simp only [segments, Text.split]
  rw [hchars, Text.splitAt_append_cons, List.map_append, List.filter_append]

theorem lookup_eq (v : Json) (path : String) : v.lookup path = follow (segments path) v := rfl

/-! ### Ways into a value -/

/-- The value that an object holds under a key: that of its first member of this key.  No other value holds any. -/
inductive Child (key : String) (x : Json) : Json → Prop where
  | member {ms : JsonMembers} {before after : List (String × Json)} (members : ms.toList = before ++ (key, x) :: after)
    (first : ∀ m ∈ before, m.1 ≠ key) : Child key x (.object ms)

/-- Keys lead from a value to another one. -/
inductive LeadsTo : List String → Json → Json → Prop where
  | here (v : Json) : LeadsTo [] v v
  | into {key : String} {keys : List String} {v u x : Json} (child : Child key u v) (rest : LeadsTo keys u x) :
    LeadsTo (key :: keys) v x

theorem get?_eq_some_iff {key : String} {x v : Json} : v.get? key = some x ↔ Child key x v := by
  constructor
  · intro h
    cases v with
    | object ms =>
        obtain ⟨before, after, hmembers, hfirst⟩ := JsonMembers.get?_eq_some_iff.mp h
        exact .member hmembers hfirst
    | null | bool _ | number _ | string _ | array _ => cases h
  · rintro ⟨hmembers, hfirst⟩
    exact JsonMembers.get?_eq_some_iff.mpr ⟨_, _, hmembers, hfirst⟩

theorem follow_eq_some_iff {keys : List String} {v x : Json} : follow keys v = some x ↔ LeadsTo keys v x := by
  induction keys generalizing v with
  | nil =>
      constructor
      · rintro ⟨⟩
        exact .here _
      · rintro ⟨⟩
        rfl
  | cons key keys ih =>
      rw [follow, Option.bind_eq_some_iff]
      constructor
      · rintro ⟨u, hchild, hrest⟩
        exact .into (get?_eq_some_iff.mp hchild) (ih.mp hrest)
      · intro h
        cases h with
        | into hchild hrest => exact ⟨_, get?_eq_some_iff.mpr hchild, ih.mpr hrest⟩

theorem follow_append (keys keys' : List String) (v : Json) :
    follow (keys ++ keys') v = (follow keys v).bind (follow keys') := by
  induction keys generalizing v with
  | nil => rfl
  | cons key keys ih =>
      rw [List.cons_append, follow, follow, Option.bind_assoc]
      exact congrArg _ (funext ih)

/-! ### Paths -/

theorem lookup_eq_some_iff {v x : Json} {path : String} :
    v.lookup path = some x ↔ ∃ segments, IsSegments path segments ∧ LeadsTo (segments.filter (· ≠ "")) v x := by
  simp only [isSegments_iff, exists_eq_left]
  exact follow_eq_some_iff

/-- **Where a dotted path leads.**  Behind a dot a path goes on where the path before the dot leads, and it leads
nowhere if that one does not.  It leads to just those values that are reached by its segments one after the other,
each of them the key of a member; segments that are empty do not count, and only objects have members. -/
theorem lookup_dotted (v : Json) :
    (∀ p q, v.lookup (p ++ "." ++ q) = (v.lookup p).bind fun u => u.lookup q) ∧
    ∀ p x, v.lookup p = some x ↔
      ∃ segments, IsSegments p segments ∧ LeadsTo (segments.filter (· ≠ "")) v x := by
  constructor
  · intro p q
    rw [lookup_eq, segments_append, follow_append]
    rfl
  · intro p x
    exact lookup_eq_some_iff

/-- Dots at the ends and doubled ones make no difference, and items of an array have no keys. -/
example :
    let answer := ofMembers [("data", ofMembers [("token", .string "t"), ("ids", ofItems [.string "i"])])]
    answer.lookup ".data..token." = some (.string "t") ∧ answer.lookup "data.ids.0" = none := by
  decide +kernel

end Json

/-- The token of an answer is the text that the path of the settings leads to, unless that is empty. -/
theorem Provider.tokenOf_eq_some_iff_leadsTo {s : TokenSettings} {answer : Json} {token : String} :
    tokenOf s answer = some token ↔
      (∃ segments, Json.IsSegments s.tokenField segments ∧
        Json.LeadsTo (segments.filter (· ≠ "")) answer (.string token)) ∧ token ≠ "" := by
  rw [tokenOf_eq_some_iff, Json.lookup_eq_some_iff]

end SignOn
