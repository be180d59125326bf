import SignOn.Proofs.Json.Records
import SignOn.Proofs.Sessions

/-! # Which contents are sessions

`Store.read` on every content that the file of a role can have.

* **Values.**  `Draft.value?` is the value of a tree all of whose leaves can be used; `value_eq_ok_iff` is the decoder
  of any value: it needs such a tree, of no more levels than it may descend.
* **Sessions.**  `IsSessionText`: the content is a text of an object whose keys can all be read, and in which
  `cookies` and `origins` stand once each, before an array of values.  Other members are only passed over, so nothing
  is asked of their values but that they are JSON. -/

namespace SignOn

open Text (Symbol)

/-! ### Values of trees -/

mutual

/-- The value of a tree, if each of its leaves and keys can be used. -/
def Draft.value? : Draft → Option Json
  | .null => some .null
  | .bool b => some (.bool b)
  | .number n => some (.number n)
  | .string s => some (.string s)
  | .array items => items.values?.map .array
  | .object members => members.values?.map .ofMembers
  | .unusable _ => none

def DraftItems.values? : DraftItems → Option JsonItems
  | .stop none => some .nil
  | .stop (some _) => none
  | .more d items => d.value?.bind fun v => items.values?.map (.cons v)

/-- The values of the members, in the order of the text. -/
def DraftMembers.values? : DraftMembers → Option (List (String × Json))
  | .stop none => some []
  | .stop (some _) => none
  | .more (.error _) _ _ => none
  | .more (.ok k) d members => d.value?.bind fun v => members.values?.map ((k, v) :: ·)

end

mutual

/-- Levels of arrays and objects of a tree. -/
def Draft.depth : Draft → Nat
  | .array items => items.depth + 1
  | .object members => members.depth + 1
  | _ => 0

def DraftItems.depth : DraftItems → Nat
  | .stop _ => 0
  | .more d items => max d.depth items.depth

/-- Levels of the deepest value of a member. -/
def DraftMembers.depth : DraftMembers → Nat
  | .stop _ => 0
  | .more _ d members => max d.depth members.depth

end

namespace Json

theorem map_eq_ok_iff {ε α β : Type} {f : α → β} {x : Except ε α} {b : β} :
    x.map f = .ok b ↔ ∃ a, x = .ok a ∧ f a = b := by
  cases x <;> simp [Except.map]

theorem bind_eq_ok_iff {ε α β : Type} {x : Except ε α} {f : α → Except ε β} {b : β} :
    x.bind f = .ok b ↔ ∃ a, x = .ok a ∧ f a = .ok b := by
  cases x <;> simp [Except.bind]

theorem valueItems_more (n : Nat) (d : Draft) (items : DraftItems) :
    valueItems n (.more d items) = (value n d).bind fun v => (valueItems n items).map (.cons v) := by
  rw [valueItems]
  cases value n d <;> rfl

theorem valueMembers_more (n : Nat) (acc : JsonMembers) (k : String) (d : Draft) (members : DraftMembers) :
    valueMembers n acc (.more (.ok k) d members) =
      (value n d).bind fun v => valueMembers n (acc.insert k v) members := by
  rw [valueMembers]
  cases value n d <;> rfl

mutual

/-- A value is decoded if its tree has one and is not too deep. -/
theorem value_eq_ok_iff : ∀ {n : Nat} {d : Draft} {v : Json},
    value n d = .ok v ↔ d.value? = some v ∧ d.depth ≤ n
  | _, .null, v | _, .bool _, v | _, .number _, v | _, .string _, v => by
    simp [value, Draft.value?, Draft.depth]
  | _, .unusable _, v => by simp [value, Draft.value?]
  | 0, .array items, v => by simp [value, Draft.depth]
  | n + 1, .array items, v => by
    simp only [value, map_eq_ok_iff, valueItems_eq_ok_iff, Draft.value?, Draft.depth, Option.map_eq_some_iff,
      Nat.add_le_add_iff_right]
    grind
  | 0, .object members, v => by simp [value, Draft.depth]
  | n + 1, .object members, v => by
    simp only [value, map_eq_ok_iff, valueMembers_eq_ok_iff, Draft.value?, Draft.depth, Option.map_eq_some_iff,
      Nat.add_le_add_iff_right, ofMembers]
    grind

theorem valueItems_eq_ok_iff : ∀ {n : Nat} {items : DraftItems} {vs : JsonItems},
    valueItems n items = .ok vs ↔ items.values? = some vs ∧ items.depth ≤ n
  | _, .stop none, vs => by simp [valueItems, DraftItems.values?, DraftItems.depth]
  | _, .stop (some _), vs => by simp [valueItems, DraftItems.values?]
  | n, .more d items, vs => by
    simp only [valueItems_more, bind_eq_ok_iff, map_eq_ok_iff, value_eq_ok_iff, valueItems_eq_ok_iff,
      DraftItems.values?, DraftItems.depth, Option.bind_eq_some_iff, Option.map_eq_some_iff, Nat.max_le]
    grind

theorem valueMembers_eq_ok_iff : ∀ {n : Nat} {members : DraftMembers} {acc res : JsonMembers},
    valueMembers n acc members = .ok res ↔ ∃ ms, members.values? = some ms ∧
      ms.foldl (fun acc m => acc.insert m.1 m.2) acc = res ∧ members.depth ≤ n
  | _, .stop none, acc, res => by simp [valueMembers, DraftMembers.values?, DraftMembers.depth]
  | _, .stop (some _), acc, res => by simp [valueMembers, DraftMembers.values?]
  | _, .more (.error _) _ _, acc, res => by simp [valueMembers, DraftMembers.values?]
  | n, .more (.ok k) d members, acc, res => by
    simp only [valueMembers_more, bind_eq_ok_iff, value_eq_ok_iff, valueMembers_eq_ok_iff, DraftMembers.values?,
      DraftMembers.depth, Option.bind_eq_some_iff, Option.map_eq_some_iff, Nat.max_le]
    constructor
    · rintro ⟨v, ⟨hv, hd⟩, ms, hms, hres, hdepth⟩
      exact ⟨(k, v) :: ms, ⟨v, hv, ms, hms, rfl⟩, hres, hd, hdepth⟩
    · rintro ⟨_, ⟨v, hv, ms, hms, rfl⟩, hres, hd, hdepth⟩
      exact ⟨v, ⟨hv, hd⟩, ms, hms, hres, hdepth⟩

end

theorem itemsOf_value (n : Nat) (items : DraftItems) :
    itemsOf (value n) items = (valueItems n items).map JsonItems.toList := by
  match items with
  | .stop none | .stop (some _) => rfl
  | .more d items =>
    rw [itemsOf, valueItems, itemsOf_value n items]
    cases value n d with
    | error e => rfl
    | ok v => cases valueItems n items <;> rfl

end Json

/-! ### Sessions -/

mutual

theorem Draft.skip_of_value? : ∀ {d : Draft} {v : Json}, d.value? = some v → d.skip = none
  | .null, _, _ | .bool _, _, _ | .number _, _, _ | .string _, _, _ => rfl
  | .array items, _, h => by
    obtain ⟨vs, hvs, -⟩ := Option.map_eq_some_iff.mp h
    exact items.skip_of_values? hvs
  | .object members, _, h => by
    obtain ⟨ms, hms, -⟩ := Option.map_eq_some_iff.mp h
    exact members.skip_of_values? hms

theorem DraftItems.skip_of_values? : ∀ (items : DraftItems) {vs : JsonItems}, items.values? = some vs →
    items.skip = none
  | .stop none, _, _ => rfl
  | .more d items, _, h => by
    obtain ⟨v, hv, hitems⟩ := Option.bind_eq_some_iff.mp h
    obtain ⟨vs, hvs, -⟩ := Option.map_eq_some_iff.mp hitems
    exact (Json.skip_more d items).mpr ⟨d.skip_of_value? hv, items.skip_of_values? hvs⟩

theorem DraftMembers.skip_of_values? : ∀ (members : DraftMembers) {ms : List (String × Json)},
    members.values? = some ms → members.skip = none
  | .stop none, _, _ => rfl
  | .more (.ok k) d members, _, h => by
    obtain ⟨v, hv, hmembers⟩ := Option.bind_eq_some_iff.mp h
    obtain ⟨ms, hms, -⟩ := Option.map_eq_some_iff.mp hmembers
    exact (Json.skip_more_members _ d members).mpr ⟨nofun, d.skip_of_value? hv, members.skip_of_values? hms⟩

end

/-- All keys are strings that can be used. -/
def DraftMembers.Named : DraftMembers → Prop
  | .stop _ => True
  | .more key _ members => (∃ k, key = .ok k) ∧ members.Named

/-- The values of a key, in the order of the text. -/
def DraftMembers.valuesAt (key : String) : DraftMembers → List Draft
  | .stop _ => []
  | .more (.error _) _ members => members.valuesAt key
  | .more (.ok k) d members => if k = key then d :: members.valuesAt key else members.valuesAt key

/-- The tree is an array of these values, each of at most `n` levels. -/
def Draft.Lists (n : Nat) (vs : JsonItems) (d : Draft) : Prop :=
  ∃ items, d = .array items ∧ items.values? = some vs ∧ items.depth ≤ n

theorem Draft.Lists.skip {n : Nat} {vs : JsonItems} {d : Draft} (h : d.Lists n vs) : d.skip = none := by
  obtain ⟨items, rfl, hvs, -⟩ := h
  exact items.skip_of_values? hvs

/-- The key stands once, before an array of these values. -/
def DraftMembers.ListsAt (members : DraftMembers) (key : String) (n : Nat) (vs : JsonItems) : Prop :=
  ∃ d, members.valuesAt key = [d] ∧ d.Lists n vs

namespace Json

theorem sequence_value_eq_ok_iff {n : Nat} {d : Draft} {vs : List Json} :
    sequence value (n + 1) d = .ok vs ↔ d.Lists n (.ofList vs) := by
  match d with
  | .array items =>
    rw [sequence, itemsOf_value, map_eq_ok_iff]
    constructor
    · rintro ⟨js, hjs, rfl⟩
      rw [JsonItems.ofList_toList]
      exact ⟨items, rfl, valueItems_eq_ok_iff.mp hjs⟩
    · rintro ⟨_, ⟨rfl⟩, hvalues⟩
      exact ⟨_, valueItems_eq_ok_iff.mpr hvalues, JsonItems.toList_ofList vs⟩
  | .null | .bool _ | .number _ | .string _ | .object _ | .unusable _ => simp [sequence, Draft.Lists]

end Json

namespace StoredSession

def fields : List (Json.Field StoredSession) :=
  [Json.required "cookies" (Json.sequence Json.value) fun v r => { r with cookies := .ofList v },
   Json.required "origins" (Json.sequence Json.value) fun v r => { r with origins := .ofList v }]

/-- A field while members are read: taken already, and then it must not come again, or still to come. -/
def Comes (seen : List String) (key : String) (n : Nat) (old new : JsonItems) (members : DraftMembers) : Prop :=
  if key ∈ seen then members.valuesAt key = [] ∧ new = old else members.ListsAt key n new

section

variable {n : Nat} {key : String} {old new : JsonItems} {seen : List String} {k : String} {d : Draft}
variable {members : DraftMembers}

theorem comes_nil : Comes [] key n old new members ↔ members.ListsAt key n new := by
  simp [Comes]

theorem comes_stop {f : Option Fault} : Comes seen key n old new (.stop f) ↔ key ∈ seen ∧ new = old := by
  by_cases h : key ∈ seen <;> simp [Comes, h, DraftMembers.ListsAt, DraftMembers.valuesAt]

theorem comes_other (h : k ≠ key) :
    Comes seen key n old new (.more (.ok k) d members) ↔ Comes seen key n old new members := by
  simp [Comes, DraftMembers.ListsAt, DraftMembers.valuesAt, h]

theorem comes_seen (h : k ≠ key) : Comes (k :: seen) key n old new members ↔ Comes seen key n old new members := by
  simp [Comes, h.symm]

theorem comes_same :
    Comes seen key n old new (.more (.ok key) d members) ↔
      key ∉ seen ∧ ∃ vs, d.Lists n vs ∧ Comes (key :: seen) key n vs new members := by
  by_cases h : key ∈ seen
  · simp [Comes, DraftMembers.valuesAt, h]
  · simp only [Comes, h, not_false_eq_true, true_and, List.mem_cons_self, if_true, DraftMembers.ListsAt,
      DraftMembers.valuesAt, List.cons.injEq]
    constructor
    · rintro ⟨_, ⟨rfl, hnone⟩, hd⟩
      exact ⟨new, hd, hnone, rfl⟩
    · rintro ⟨vs, hd, hnone, rfl⟩
      exact ⟨d, ⟨rfl, hnone⟩, hd⟩

end

theorem recordMembers_list {n : Nat} {k : String} {d : Draft} {members : DraftMembers} {seen : List String}
    {r s : StoredSession} {set : List Json → StoredSession → StoredSession}
    (h : fields.find? (·.name == k) = some (Json.required k (Json.sequence Json.value) set)) :
    Json.recordMembers fields (n + 1) (.more (.ok k) d members) seen r = .ok s ↔
      k ∉ seen ∧ ∃ vs : JsonItems, d.Lists n vs ∧
        Json.recordMembers fields (n + 1) members (k :: seen) (set vs.toList r) = .ok s := by
  rw [Json.recordMembers_known h, Json.required]
  simp only [Json.map_eq_ok_iff, Json.sequence_value_eq_ok_iff]
  constructor
  · rintro ⟨hk, _, ⟨vs, hvs, rfl⟩, hrest⟩
    exact ⟨hk, .ofList vs, hvs, by rwa [JsonItems.toList_ofList]⟩
  · rintro ⟨hk, vs, hvs, hrest⟩
    exact ⟨hk, _, ⟨vs.toList, by rwa [JsonItems.ofList_toList], rfl⟩, hrest⟩

theorem recordMembers_eq_ok_iff {n : Nat} : ∀ {members : DraftMembers} {seen : List String} {r s : StoredSession},
    Json.recordMembers fields (n + 1) members seen r = .ok s ↔
      members.Named ∧ members.skip = none ∧ Comes seen "cookies" n r.cookies s.cookies members ∧
        Comes seen "origins" n r.origins s.origins members
  | .stop (some _), _, _, _ => by simp [Json.recordMembers, DraftMembers.skip]
  | .stop none, seen, r, s => by
    have hr : r = s ↔ s.cookies = r.cookies ∧ s.origins = r.origins := by
      cases r
      cases s
      simp [eq_comm]
    by_cases hc : "cookies" ∈ seen <;> by_cases ho : "origins" ∈ seen <;>
      simp [Json.recordMembers, fields, Json.required, comes_stop, hc, ho, DraftMembers.Named, DraftMembers.skip, hr]
  | .more (.error u) d members, seen, r, s => by simp [Json.recordMembers, DraftMembers.Named]
  | .more (.ok k) d members, seen, r, s => by
    have ih := fun seen' r' => @recordMembers_eq_ok_iff n members seen' r' s
    have hlists : ∀ vs, d.Lists n vs → d.skip = none := fun _ h => h.skip
    have hnamed : (DraftMembers.more (.ok k) d members).Named ↔ members.Named := by simp [DraftMembers.Named]
    have hskip : (DraftMembers.more (.ok k) d members).skip = none ↔ d.skip = none ∧ members.skip = none := by
      simp [Json.skip_more_members]
    rw [hnamed, hskip]
    by_cases hc : k = "cookies"
    · subst hc
      rw [recordMembers_list rfl, comes_same, comes_other (by decide)]
      simp only [ih, comes_seen (show "cookies" ≠ "origins" by decide), JsonItems.ofList_toList]
      grind
    by_cases ho : k = "origins"
    · subst ho
      rw [recordMembers_list rfl, comes_same, comes_other (by decide)]
      simp only [ih, comes_seen (show "origins" ≠ "cookies" by decide), JsonItems.ofList_toList]
      grind
    have hunknown : fields.find? (·.name == k) = none := by
      simp [fields, Json.required, Ne.symm hc, Ne.symm ho]
    rw [Json.recordMembers_unknown hunknown, ih, comes_other hc, comes_other ho]
    tauto

theorem recordMembers_start {n : Nat} {members : DraftMembers} {s : StoredSession} :
    Json.recordMembers fields (n + 1) members [] {} = .ok s ↔
      members.Named ∧ members.skip = none ∧ members.ListsAt "cookies" n s.cookies ∧
        members.ListsAt "origins" n s.origins := by
  rw [recordMembers_eq_ok_iff, comes_nil, comes_nil]

theorem recordItems_eq_ok {expected : String} {n : Nat} {items : DraftItems} {s : StoredSession}
    (h : Json.recordItems expected (n + 1) fields 0 items {} = .ok s) :
    ∃ c o, items = .more c (.more o (.stop none)) ∧ c.Lists n s.cookies ∧ o.Lists n s.origins := by
  match items with
  | .stop none | .stop (some _) => cases h
  | .more c items =>
    obtain ⟨r, hr, hitems⟩ := Json.recordItems_cons h
    obtain ⟨cs, hcs, rfl⟩ := Json.map_eq_ok_iff.mp hr
    match items with
    | .stop none | .stop (some _) => cases hitems
    | .more o items =>
      obtain ⟨r, hr, hend⟩ := Json.recordItems_cons hitems
      obtain ⟨os, hos, rfl⟩ := Json.map_eq_ok_iff.mp hr
      match items with
      | .stop (some _) | .more .. => cases hend
      | .stop none =>
        cases hend
        exact ⟨c, o, rfl, Json.sequence_value_eq_ok_iff.mp hcs, Json.sequence_value_eq_ok_iff.mp hos⟩

/-- The symbols are a text of an object whose keys can all be used, and in which the two keys of a session stand once
each, before the arrays of this one.  With the object and the array, no value that is used lies deeper than
`Json.maxDepth`. -/
def IsText (s : StoredSession) (ss : List Symbol) : Prop :=
  ∃ members, Json.Document (.object members) ss ∧ members.Named ∧
    members.ListsAt "cookies" (Json.maxDepth - 2) s.cookies ∧ members.ListsAt "origins" (Json.maxDepth - 2) s.origins

/-- The symbols are a text of an array that holds nothing but two arrays of values. -/
def IsPair (ss : List Symbol) : Prop :=
  ∃ c o cs os, Json.Document (.array (.more c (.more o (.stop none)))) ss ∧
    c.Lists (Json.maxDepth - 2) cs ∧ o.Lists (Json.maxDepth - 2) os

variable {s : StoredSession} {ss : List Symbol}

theorem IsText.decode (h : s.IsText ss) : Json.decodeReading decoder (Json.readSymbols ss) = .ok s := by
  obtain ⟨members, hdocument, hnamed, hcookies, horigins⟩ := h
  obtain ⟨hread, hskip⟩ := Json.readSymbols_eq_iff.mpr hdocument
  refine Json.decodeReading_eq_ok_iff.mpr ⟨_, hread, ?_⟩
  exact recordMembers_start.mpr ⟨hnamed, hskip, hcookies, horigins⟩

theorem isText_of_decode (h : Json.decodeReading decoder (Json.readSymbols ss) = .ok s) :
    s.IsText ss ∨ IsPair ss := by
  obtain ⟨d, hread, hdecode⟩ := Json.decodeReading_eq_ok_iff.mp h
  match d with
  | .object members =>
    obtain ⟨hnamed, hskip, hlists⟩ := recordMembers_start.mp hdecode
    exact .inl ⟨members, Json.readSymbols_eq_iff.mp ⟨hread, hskip⟩, hnamed, hlists⟩
  | .array items =>
    obtain ⟨c, o, rfl, hc, ho⟩ := recordItems_eq_ok hdecode
    have hskip : (Draft.array (.more c (.more o (.stop none)))).skip = none := by
      simp [Draft.skip, hc.skip, ho.skip, DraftItems.skip]
    exact .inr ⟨c, o, _, _, Json.readSymbols_eq_iff.mp ⟨hread, hskip⟩, hc, ho⟩
  | .null | .bool _ | .number _ | .string _ | .unusable _ => cases hdecode

theorem IsText.not_isPair (h : s.IsText ss) : ¬ IsPair ss := by
  rintro ⟨c, o, cs, os, hpair, -, -⟩
  obtain ⟨members, hdocument, -⟩ := h
  cases hpair.unique hdocument

end StoredSession

namespace Store

open Files (Content)

variable {σ : Type}

/-- The role's session cannot be read for a cause. -/
def FailsToRead (s : Store) (role : String) (cause : StorageCause) (b : PageBehaviour σ) (w : World σ) : Prop :=
  ∃ e, ((s.read role).run b w).1 = .error e ∧ e.role = role ∧ e.path = s.path role ∧ e.cause = cause

section

variable {s : Store} {role path message : String} {cause : StorageCause} {detail : Option Json.DecodeError}
variable {b : PageBehaviour σ} {w : World σ}

theorem failsToRead_of_readSession
    (h : ((readSession (s.path role)).run b w).1 = .error (cause, message, detail)) : s.FailsToRead role cause b w := by
  refine ⟨{ role, path := s.path role, cause, message, detail }, ?_, ?_⟩
  · rw [read, Plan.bind_eq, Plan.run_bind, h]
    rfl
  · dsimp only
    exact ⟨rfl, rfl, rfl⟩

theorem readSession_of_notFound (h : w.disk.read path = .error .notFound) :
    ((readSession path).run b w).1 = .error (.missing, "file does not exist", none) := by
  rw [readSession, Plan.bind_eq, Plan.run_file, World.fileStep, h]
  rfl

theorem readSession_of_error {e : FileError} (h : w.disk.read path = .error e) (he : e ≠ .notFound) :
    ((readSession path).run b w).1 = .error (.invalid, e.message, none) := by
  rw [readSession, Plan.bind_eq, Plan.run_file, World.fileStep, h]
  dsimp only
  split
  next heq => exact absurd (Except.error.inj heq) he
  next heq =>
    cases heq
    rfl
  next heq => cases heq

theorem run_read_of_content {content : Content} (h : w.disk.read (s.path role) = .ok content) :
    match Json.decodeReading StoredSession.decoder (Json.readSymbols content.symbols) with
    | .ok session => ((s.read role).run b w).1 = .ok session
    | .error _ => s.FailsToRead role .corrupted b w := by
  have hread := readSession_of_content (b := b) h
  cases hdecode : Json.decodeReading StoredSession.decoder (Json.readSymbols content.symbols) with
  | ok session =>
      rw [hdecode] at hread
      dsimp only at hread ⊢
      rw [read, Plan.bind_eq, Plan.run_bind, hread]
      rfl
  | error e =>
      rw [hdecode] at hread
      exact failsToRead_of_readSession (congrArg Prod.fst hread)

theorem run_read_of_isText {content : Content} {session : StoredSession}
    (h : w.disk.read (s.path role) = .ok content) (hsession : session.IsText content.symbols) :
    ((s.read role).run b w).1 = .ok session := by
  have hrun := run_read_of_content (b := b) h
  rwa [hsession.decode] at hrun

end

/-- What is read of a role, whatever its path leads to. -/
theorem run_read_spec (s : Store) (role : String) (b : PageBehaviour σ) (w : World σ) :
    match w.disk.read (s.path role) with
    | .ok content => ¬ StoredSession.IsPair content.symbols →
      (∀ session : StoredSession, ((s.read role).run b w).1 = .ok session ↔ session.IsText content.symbols) ∧
        ((∀ session : StoredSession, ¬ session.IsText content.symbols) → s.FailsToRead role .corrupted b w)
    | .error .notFound => s.FailsToRead role .missing b w
    | .error _ => s.FailsToRead role .invalid b w := by
  cases hread : w.disk.read (s.path role) with
  | error e =>
      split
      next heq => cases heq
      next heq =>
        cases heq
        exact failsToRead_of_readSession (readSession_of_notFound hread)
      next hne heq =>
        cases heq
        exact failsToRead_of_readSession (readSession_of_error hread hne)
  | ok content =>
      intro hpair
      have hrun := run_read_of_content (b := b) hread
      cases hdecode : Json.decodeReading StoredSession.decoder (Json.readSymbols content.symbols) with
      | ok t =>
          rw [hdecode] at hrun
          have ht := (StoredSession.isText_of_decode hdecode).resolve_right hpair
          refine ⟨fun session => ?_, fun hnone => absurd ht (hnone t)⟩
          rw [hrun]
          constructor
          · rintro ⟨⟩
            exact ht
          · intro hsession
            rw [Except.ok.inj (hdecode.symm.trans hsession.decode)]
      | error e =>
          rw [hdecode] at hrun
          have hnone : ∀ session : StoredSession, ¬ session.IsText content.symbols := by
            intro session hsession
            cases hdecode.symm.trans hsession.decode
          refine ⟨fun session => ?_, fun _ => hrun⟩
          obtain ⟨failure, hfailure, -⟩ := hrun
          rw [hfailure]
          simp [hnone]

/-- A world with a content in the file of a role. -/
def cabinet (content : Content) : World Unit where
  page := ()
  disk.tree := [([".auth-states"], .directory 0), ([".auth-states", "viewer.json"], .file content 0)]

def nested : Nat → Json
  | 0 => .array .nil
  | n + 1 => .array (.cons (nested n) .nil)

/-- An empty session with a member that is none of it. -/
def tower (n : Nat) : Json :=
  .object (.cons "cookies" (.array .nil) (.cons "origins" (.array .nil) (.cons "x" (nested n) .nil)))

def towerText (n : Nat) : Content :=
  .text (Json.compact (tower n))

theorem numbersIn_nested (n : Nat) : (nested n).NumbersIn Number.ReadsBack := by
  induction n with
  | zero => trivial
  | succ n ih => exact ⟨ih, trivial⟩

theorem document_towerText (n : Nat) : Json.Document (tower n).draft (towerText n).symbols := by
  have hnumbers : (tower n).NumbersIn Number.ReadsBack := ⟨trivial, trivial, numbersIn_nested n, trivial⟩
  have htext := (Json.spells_compactChars (tower n)).textOf _ hnumbers
  refine ⟨[], _, [], Json.gap_nil, htext, Json.gap_nil, ?_⟩
  simp [towerText, Content.symbols, Text.symbols, Json.compact]

theorem isText_towerText (n : Nat) : StoredSession.IsText {} (towerText n).symbols := by
  refine ⟨_, document_towerText n, ?_, ?_, ?_⟩
  · exact ⟨⟨_, rfl⟩, ⟨_, rfl⟩, ⟨_, rfl⟩, trivial⟩
  · exact ⟨.array (.stop none), rfl, .stop none, rfl, rfl, Nat.zero_le _⟩
  · exact ⟨.array (.stop none), rfl, .stop none, rfl, rfl, Nat.zero_le _⟩

theorem read_cabinet (content : Content) :
    (cabinet content).disk.read ((Store.mk {} none .standard).path "viewer") = .ok content := by
  have hpath : (Store.mk {} none .standard).path "viewer" = ".auth-states/viewer.json" := by
    have h : pathFor {} none "viewer" = ".auth-states/viewer.json" := by decide
    exact h
  rw [hpath]
  rfl

/-- A session with another member is read. -/
theorem run_read_spec_tower :
    (((Store.mk {} none .standard).read "viewer").run Manager.homePage (cabinet (towerText 0))).1 = .ok {} := by
  have hspec := run_read_spec (Store.mk {} none .standard) "viewer" Manager.homePage (cabinet (towerText 0))
  rw [read_cabinet] at hspec
  exact ((hspec (isText_towerText 0).not_isPair).1 {}).mpr (isText_towerText 0)

theorem depth_nested (n : Nat) : (nested n).draft.depth = n + 1 := by
  induction n with
  | zero => rfl
  | succ n ih => simp [nested, Json.draft, JsonItems.draft, Draft.depth, DraftItems.depth, ih]

theorem depth_tower (n : Nat) : (tower n).draft.depth = n + 2 := by
  simp [tower, Json.draft, JsonItems.draft, JsonMembers.draft, Draft.depth, DraftItems.depth, DraftMembers.depth,
    depth_nested]

/-- What is only passed over may be nested deeper than what is used. -/
theorem reads_deep_member :
    (((Store.mk {} none .standard).read "viewer").run Manager.homePage (cabinet (towerText 126))).1 = .ok {} ∧
      ∀ d, Json.Document d (towerText 126).symbols → Json.maxDepth < d.depth := by
  refine ⟨run_read_of_isText (read_cabinet _) (isText_towerText 126), fun d hd => ?_⟩
  rw [hd.unique (document_towerText 126), depth_tower]
  decide

end Store

end SignOn
