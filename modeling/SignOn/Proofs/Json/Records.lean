import SignOn.Proofs.Json.Decoding
import SignOn.Settings.Format

/-! # Records, read as they are written

`Reads item v a`: the decoder `item` makes `a` of every text of the value `v`, provided the numbers in `v` fit and the
decoder may descend as deep as `v` is.

* Each decoder of a leaf reads what is written for that leaf (`reads_text` and those that follow it).
* A record is read field by field.  `Fills` says that fields take up values one behind the other and lead from one
  record to another; `reads_record` is what a decoder of a record makes of an object with these members. -/

namespace SignOn

/-- An integer of 64 bits, with a sign or without, or a double. -/
def Number.Fits : Number → Prop
  | .int i => -0x8000000000000000 ≤ i ∧ i < 0x10000000000000000
  | .float _ => True

namespace Json

variable {α β ρ : Type} {item : Decoder α} {v : Json} {a : α}

/-- The decoder makes `a` of the texts of `v`. -/
def Reads (item : Decoder α) (v : Json) (a : α) : Prop :=
  v.NumbersIn Number.Fits → ∀ depth, v.depth ≤ depth → item depth v.draft = .ok a

theorem Reads.map (h : Reads item v a) (f : α → β) : Reads (fun depth d => (item depth d).map f) v (f a) := by
  intro hv depth hd
  dsimp only
  rw [h hv depth hd]
  rfl

/-! ### Leaves -/

theorem reads_text (s : String) : Reads text (.string s) s := fun _ _ _ => rfl

theorem reads_path (s : String) : Reads path (.string s) s := fun _ _ _ => rfl

theorem reads_boolean (b : Bool) : Reads boolean (.bool b) b := fun _ _ _ => rfl

theorem reads_integer {low high i : Int} {expected : String} (h : low ≤ i ∧ i ≤ high) :
    Reads (integer low high expected) (.number (.int i)) i := fun _ _ _ => if_pos h

theorem reads_nat64 (n : Nat) : Reads nat64 (ofNat n) n := by
  intro hn depth hd
  have hfits : (0 : Int) ≤ n ∧ (n : Int) ≤ 0xFFFFFFFFFFFFFFFF := ⟨Int.natCast_nonneg n, Int.le_of_lt_add_one hn.2⟩
  exact (reads_integer hfits).map Int.toNat hn depth hd

theorem reads_nat32 {n : Nat} (h : n < 0x100000000) : Reads nat32 (ofNat n) n := by
  have hfits : (0 : Int) ≤ n ∧ (n : Int) ≤ 0xFFFFFFFF := by omega
  exact (reads_integer hfits).map Int.toNat

theorem reads_choice {variants : List (String × α)} {name : String} (h : variants.lookup name = some a) :
    Reads (choice variants) (.string name) a := by
  intro _ depth _
  simp only [draft, choice, choice.pick, h]

theorem reads_optional {write : α → Json} {o : Option α} (h : ∀ a ∈ o, Reads item (write a) a)
    (hnull : ∀ a, write a ≠ .null) : Reads (optional item) (ofOption write o) o := by
  cases o with
  | none => exact fun _ _ _ => rfl
  | some a =>
    intro hv depth hd
    have hdraft : (write a).draft ≠ .null := by
      have hne := hnull a
      cases hwrite : write a with
      | null => exact absurd hwrite hne
      | bool _ | number _ | string _ | array _ | object _ => exact Draft.noConfusion
    rw [ofOption] at hv hd ⊢
    rw [optional, h a rfl hv depth hd]
    · rfl
    · exact hdraft

/-! ### Records -/

/-- The field takes up the texts of `v`, which leads from the record `r` to `r'`. -/
def TakesUp (f : Field ρ) (v : Json) (r r' : ρ) : Prop :=
  v.NumbersIn Number.Fits → ∀ depth, v.depth ≤ depth → f.read depth v.draft r = .ok r'

theorem takesUp_required (h : Reads item v a) (name : String) (set : α → ρ → ρ) (r : ρ) :
    TakesUp (required name item set) v r (set a r) :=
  h.map (set · r)

/-- Fields take up the members with their names, each one its member, and lead from one record to another. -/
inductive Fills : List (Field ρ) → List (String × Json) → ρ → ρ → Prop where
  | nil {r : ρ} : Fills [] [] r r
  | cons {f : Field ρ} {fields : List (Field ρ)} {v : Json} {ms : List (String × Json)} {r r' s : ρ} :
      TakesUp f v r r' → Fills fields ms r' s → Fills (f :: fields) ((f.name, v) :: ms) r s

section

variable {fields : List (Field ρ)} {ms : List (String × Json)} {r s : ρ} {name : String}

theorem Fills.required {set : α → ρ → ρ} (h : Reads item v a) (hrest : Fills fields ms (set a r) s) :
    Fills (required name item set :: fields) ((name, v) :: ms) r s :=
  .cons (takesUp_required h name set r) hrest

theorem Fills.defaulting {set : α → ρ → ρ} (h : Reads item v a) (hrest : Fills fields ms (set a r) s) :
    Fills (defaulting name item set :: fields) ((name, v) :: ms) r s :=
  .cons (takesUp_required h name set r) hrest

theorem Fills.nullable_of_reads {set : Option α → ρ → ρ} {o : Option α} (h : Reads (optional item) v o)
    (hrest : Fills fields ms (set o r) s) : Fills (nullable name item set :: fields) ((name, v) :: ms) r s :=
  .cons (takesUp_required h name set r) hrest

theorem Fills.nullable {set : Option α → ρ → ρ} {write : α → Json} {o : Option α} (h : ∀ a, Reads item (write a) a)
    (hnull : ∀ a, write a ≠ .null) (hrest : Fills fields ms (set o r) s) :
    Fills (nullable name item set :: fields) ((name, ofOption write o) :: ms) r s :=
  .nullable_of_reads (reads_optional (fun a _ => h a) hnull) hrest

theorem find?_name {f : Field ρ} (hnames : (fields.map Field.name).Nodup) (hf : f ∈ fields) :
    fields.find? (·.name == f.name) = some f := by
  induction fields with
  | nil => cases hf
  | cons g fields ih =>
      obtain ⟨hg, hnames⟩ := List.nodup_cons.mp hnames
      rcases List.mem_cons.mp hf with rfl | hf
      · exact List.find?_cons_of_pos (beq_self_eq_true _)
      · have hne : g.name ≠ f.name := fun heq => hg (heq ▸ List.mem_map_of_mem hf)
        rw [List.find?_cons_of_neg (by simpa using hne), ih hnames hf]

theorem recordMembers_unknown {n : Nat} {k : String} {d : Draft} {members : DraftMembers} {seen : List String}
    (h : fields.find? (·.name == k) = none) :
    recordMembers fields n (.more (.ok k) d members) seen r = .ok s ↔
      d.skip = none ∧ recordMembers fields n members seen r = .ok s := by
  simp only [recordMembers, h]
  cases d.skip <;> simp

theorem recordMembers_known {n : Nat} {k : String} {d : Draft} {members : DraftMembers} {seen : List String}
    {f : Field ρ} (h : fields.find? (·.name == k) = some f) :
    recordMembers fields n (.more (.ok k) d members) seen r = .ok s ↔
      k ∉ seen ∧ ∃ r', f.read n d r = .ok r' ∧ recordMembers fields n members (k :: seen) r' = .ok s := by
  simp only [recordMembers, h, List.contains_iff_mem]
  by_cases hk : k ∈ seen
  · simp [hk]
  · rw [if_neg hk]
    cases f.read n d r <;> simp [hk]

theorem recordItems_cons {expected : String} {n i : Nat} {f : Field ρ} {d : Draft} {items : DraftItems}
    (h : recordItems expected n (f :: fields) i (.more d items) r = .ok s) :
    ∃ r', f.read n d r = .ok r' ∧ recordItems expected n fields (i + 1) items r' = .ok s := by
  rw [recordItems] at h
  split at h
  · cases h
  · next r' hr' => exact ⟨r', hr', h⟩

/-- Fields that are filled one behind the other, behind those that have been read before. -/
theorem recordMembers_of_fills {todo : List (Field ρ)} (h : Fills todo ms r s) :
    ∀ (done : List (Field ρ)) {depth : Nat}, ((done ++ todo).map Field.name).Nodup →
      (JsonMembers.ofList ms).NumbersIn Number.Fits → (JsonMembers.ofList ms).depth ≤ depth →
      recordMembers (done ++ todo) depth (JsonMembers.ofList ms).draft (done.map Field.name).reverse r = .ok s := by
  -- The reader looks among all fields for each key, so what has been read before stays part of the statement.
  induction h with
  | nil =>
      intro done depth _ _ _
      have hread : done.find? (fun f => !f.optional && !(done.map Field.name).reverse.contains f.name) = none := by
        refine List.find?_eq_none.mpr fun f hf => ?_
        simp [List.mem_map_of_mem (f := Field.name) hf]
      rw [List.append_nil, JsonMembers.ofList, JsonMembers.draft, recordMembers, hread]
  | @cons f fields v ms r r' s hv _ ih =>
      intro done depth hnames hnumbers hdepth
      have hfind := find?_name hnames (List.mem_append_right done List.mem_cons_self)
      have hread := hv hnumbers.1 depth (le_trans (le_max_left _ _) hdepth)
      have hrest := ih (done ++ [f]) (by simpa using hnames) hnumbers.2 (le_trans (le_max_right _ _) hdepth)
      have hnew : f.name ∉ done.map Field.name := by
        rw [List.map_append, List.map_cons] at hnames
        exact fun hmem => (List.nodup_append.mp hnames).2.2 _ hmem _ List.mem_cons_self rfl
      rw [JsonMembers.ofList, JsonMembers.draft, recordMembers_known hfind]
      refine ⟨mt List.mem_reverse.mp hnew, r', hread, ?_⟩
      simpa using hrest

/-- An object whose members fill the fields of a record, in their order. -/
theorem reads_record (hnames : (fields.map Field.name).Nodup) (h : Fills fields ms r s) :
    Reads (record name r fields) (Json.fields ms) s := by
  intro hnumbers depth hdepth
  cases depth with
  | zero => exact absurd hdepth (Nat.not_succ_le_zero _)
  | succ depth => exact recordMembers_of_fills h [] hnames hnumbers (Nat.le_of_succ_le_succ hdepth)

end

/-! ### Mappings -/

theorem membersOf_draft {write : α → Json} {depth : Nat} : ∀ {ms : List (String × α)},
    (∀ m ∈ ms, Reads item (write m.2) m.2) → ∀ {vs : JsonMembers}, vs = .ofList (ms.map fun m => (m.1, write m.2)) →
    vs.NumbersIn Number.Fits → vs.depth ≤ depth → membersOf (item depth) vs.draft = .ok ms
  | [], _, _, rfl, _, _ => rfl
  | m :: ms, h, _, rfl, hnumbers, hdepth => by
    have hm := h m List.mem_cons_self hnumbers.1 depth (le_trans (le_max_left _ _) hdepth)
    have ih := membersOf_draft (fun m hm => h m (List.mem_cons_of_mem _ hm)) rfl hnumbers.2
      (le_trans (le_max_right _ _) hdepth)
    rw [List.map_cons, JsonMembers.ofList, JsonMembers.draft, membersOf, hm, ih]
    rfl

theorem reads_mapping {write : α → Json} {ms : List (String × α)} (h : ∀ m ∈ ms, Reads item (write m.2) m.2) :
    Reads (mapping item) (fields (ms.map fun m => (m.1, write m.2))) ms := by
  intro hnumbers depth hdepth
  cases depth with
  | zero => exact absurd hdepth (Nat.not_succ_le_zero _)
  | succ depth => exact membersOf_draft h rfl hnumbers (Nat.le_of_succ_le_succ hdepth)

end Json

end SignOn
