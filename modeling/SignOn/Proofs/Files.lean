import SignOn.Files.Tree

/-! # Operations on files, place by place

* `Tree.LinkFree` is a tree without symbolic links.  There a path leads through directories only, so
  it leads to the same place in every tree with the same directories (`walk_congr`).  That place is its
  `goal`, which the parts of the path alone decide (`goal_of_resolve`).
* `Tree.Grown` is what making directories does: nothing that stands in the tree changes, and all that
  is new are directories.
* A write or a move that succeeds changes the tree at the places of its paths alone (`write_eq_ok`,
  `rename_eq_ok`); `replace` puts the two together. -/

namespace SignOn.Files

namespace Tree

def LinkFree (t : Tree) : Prop :=
  ∀ p target, t.get? p ≠ some (.link target)

theorem linkFree_of_forall {t : Tree} (h : ∀ e ∈ t, ∀ target, e.2 ≠ .link target) : t.LinkFree := by
  intro p target hp
  unfold get? at hp
  split at hp
  · cases hp
  · obtain ⟨before, after, heq, -⟩ := List.lookup_eq_some_iff.mp hp
    exact h (p, .link target) (by rw [heq]; simp) target rfl

/-- A directory stands at a place. -/
def HasDirectory (t : Tree) (p : Place) : Prop :=
  ∃ m, t.get? p = some (.directory m)

/-! ### Entries after a change -/

@[simp] theorem get?_nil (t : Tree) : t.get? [] = some (.directory 0) := rfl

theorem get?_of_ne (t : Tree) {p : Place} (h : p ≠ []) : t.get? p = t.lookup p := by
  rw [get?, if_neg h]

theorem get?_erase_of_ne {t : Tree} {p q : Place} (h : q ≠ p) : (t.erase p).get? q = t.get? q := by
  by_cases hq : q = []
  · rw [hq, get?_nil, get?_nil]
  · rw [get?_of_ne _ hq, get?_of_ne _ hq, erase]
    induction t with
    | nil => rfl
    | cons e t ih =>
        obtain ⟨r, e⟩ := e
        by_cases hr : r = p
        · have hqr : (q == r) = false := beq_false_of_ne (hr ▸ h)
          rw [List.filter_cons_of_neg (by simp [hr]), List.lookup_cons, hqr, ih]
        · rw [List.filter_cons_of_pos (by simp [hr]), List.lookup_cons, List.lookup_cons, ih]

theorem get?_erase_self {t : Tree} {p : Place} (h : p ≠ []) : (t.erase p).get? p = none := by
  rw [get?_of_ne _ h, erase]
  induction t with
  | nil => rfl
  | cons e t ih =>
      obtain ⟨r, e⟩ := e
      by_cases hr : r = p
      · rw [List.filter_cons_of_neg (by simp [hr]), ih]
      · have hpr : (p == r) = false := beq_false_of_ne (Ne.symm hr)
        rw [List.filter_cons_of_pos (by simp [hr]), List.lookup_cons, hpr, ih]

theorem get?_set_self {t : Tree} {p : Place} (e : Entry) (h : p ≠ []) : (t.set p e).get? p = some e := by
  rw [get?_of_ne _ h, set, List.lookup_cons, beq_self_eq_true]

theorem get?_set_of_ne {t : Tree} {p q : Place} (e : Entry) (h : q ≠ p) :
    (t.set p e).get? q = t.get? q := by
  by_cases hq : q = []
  · rw [hq, get?_nil, get?_nil]
  · have hqp : (q == p) = false := beq_false_of_ne h
    rw [get?_of_ne _ hq, set, List.lookup_cons, hqp, ← get?_of_ne _ hq, get?_erase_of_ne h]

theorem LinkFree.erase {t : Tree} (ht : t.LinkFree) (p : Place) : (t.erase p).LinkFree := by
  intro q target hq
  by_cases hqp : q = p
  · by_cases hp : p = []
    · rw [hqp, hp, get?_nil] at hq
      cases hq
    · rw [hqp, get?_erase_self hp] at hq
      cases hq
  · rw [get?_erase_of_ne hqp] at hq
    exact ht q target hq

theorem LinkFree.set {t : Tree} (ht : t.LinkFree) (p : Place) {e : Entry} (he : ∀ target, e ≠ .link target) :
    (t.set p e).LinkFree := by
  intro q target hq
  by_cases hqp : q = p
  · by_cases hp : p = []
    · rw [hqp, hp, get?_nil] at hq
      cases hq
    · rw [hqp, get?_set_self e hp] at hq
      exact he target (Option.some.inj hq)
  · rw [get?_set_of_ne e hqp] at hq
    exact ht q target hq

theorem hasDirectory_set {t : Tree} {p : Place} (hp : ¬ t.HasDirectory p) {e : Entry}
    (he : ∀ m, e ≠ .directory m) (q : Place) : (t.set p e).HasDirectory q ↔ t.HasDirectory q := by
  by_cases hqp : q = p
  · subst hqp
    have hne : q ≠ [] := fun h => hp ⟨0, h ▸ get?_nil t⟩
    rw [HasDirectory, get?_set_self e hne]
    exact ⟨fun ⟨m, h⟩ => absurd (Option.some.inj h) (he m), fun h => absurd h hp⟩
  · rw [HasDirectory, get?_set_of_ne e hqp]
    rfl

theorem hasDirectory_erase {t : Tree} {p : Place} (hp : ¬ t.HasDirectory p) (q : Place) :
    (t.erase p).HasDirectory q ↔ t.HasDirectory q := by
  by_cases hqp : q = p
  · subst hqp
    have hne : q ≠ [] := fun h => hp ⟨0, h ▸ get?_nil t⟩
    rw [HasDirectory, get?_erase_self hne]
    exact ⟨fun ⟨_, h⟩ => (nomatch h), fun h => absurd h hp⟩
  · rw [HasDirectory, get?_erase_of_ne hqp]
    rfl

/-! ### Trees that have grown -/

/-- All that `t'` has more than `t` are directories. -/
def Grown (t t' : Tree) : Prop :=
  ∀ p, t'.get? p = t.get? p ∨ (t.get? p = none ∧ t'.HasDirectory p)

theorem Grown.refl (t : Tree) : Grown t t := fun _ => .inl rfl

theorem Grown.trans {t u v : Tree} (h : Grown t u) (h' : Grown u v) : Grown t v := by
  intro p
  rcases h' p with hv | ⟨hu, hv⟩
  · rcases h p with ht | ⟨ht, m, hm⟩
    · exact .inl (hv.trans ht)
    · exact .inr ⟨ht, m, hv.trans hm⟩
  · rcases h p with ht | ⟨ht, -⟩
    · exact .inr ⟨ht.symm.trans hu, hv⟩
    · exact .inr ⟨ht, hv⟩

theorem Grown.hasDirectory {t t' : Tree} (h : Grown t t') {p : Place} (hp : t.HasDirectory p) :
    t'.HasDirectory p := by
  obtain ⟨m, hm⟩ := hp
  rcases h p with heq | ⟨hnone, -⟩
  · exact ⟨m, heq.trans hm⟩
  · rw [hnone] at hm
    cases hm

theorem Grown.get?_iff {t t' : Tree} (h : Grown t t') (p : Place) {e : Entry} (he : ∀ m, e ≠ .directory m) :
    t'.get? p = some e ↔ t.get? p = some e := by
  rcases h p with heq | ⟨hnone, m, hm⟩
  · rw [heq]
  · rw [hnone, hm]
    exact ⟨fun h => absurd (Option.some.inj h).symm (he m), fun h => nomatch h⟩

theorem Grown.linkFree {t t' : Tree} (h : Grown t t') (ht : t.LinkFree) : t'.LinkFree :=
  fun p target hp => ht p target ((h.get?_iff p fun _ => Entry.noConfusion).mp hp)

end Tree

open SignOn.Files.Tree

/-! ### Where paths lead -/

theorem walk_cons_eq_ok {t : Tree} (ht : t.LinkFree) {f : Bool} {fuel links : Nat} {place q : Place}
    {part : String} {rest : List String} :
    walk t f (fuel + 1) links place (part :: rest) = .ok q ↔
      t.HasDirectory place ∧
        ((part = ".." ∧ walk t f fuel links place.dropLast rest = .ok q) ∨
          (part ≠ ".." ∧ part.utf8ByteSize ≤ maxName ∧
            ((t.HasDirectory (place ++ [part]) ∧ walk t f fuel links (place ++ [part]) rest = .ok q) ∨
              (¬ t.HasDirectory (place ++ [part]) ∧ rest = [] ∧ q = place ++ [part])))) := by
  have hnone : ∀ p, t.get? p = none → ¬ t.HasDirectory p := fun p h ⟨_, hm⟩ => by
    rw [h] at hm; cases hm
  have hfile : ∀ p c m, t.get? p = some (.file c m) → ¬ t.HasDirectory p := fun p c m h ⟨_, hm⟩ => by
    rw [h] at hm; cases hm
  rw [walk]
  cases hplace : t.get? place with
  | none => simp [hnone place hplace]
  | some e =>
      cases e with
      | file c m => simp [hfile place c m hplace]
      | link target => exact absurd hplace (ht place target)
      | directory m =>
          have hdir : t.HasDirectory place := ⟨m, hplace⟩
          by_cases hup : part = ".."
          · simp [hup, hdir]
          · by_cases hlen : part.utf8ByteSize > maxName
            · simp [hup, hlen, Nat.not_le.mpr hlen]
            · have hlen' := Nat.not_lt.mp hlen
              cases hnext : t.get? (place ++ [part]) with
              | none =>
                  by_cases hrest : rest = []
                  · simp [hup, hlen, hlen', hdir, hnone _ hnext, hnext, hrest, eq_comm]
                  · simp [hup, hlen, hnone _ hnext, hnext, hrest]
              | some e =>
                  cases e with
                  | file c m =>
                      by_cases hrest : rest = []
                      · simp [hup, hlen, hlen', hdir, hfile _ c m hnext, hnext, hrest, eq_comm]
                      · simp [hup, hlen, hfile _ c m hnext, hnext, hrest]
                  | link target => exact absurd hnext (ht _ target)
                  | directory m' =>
                      have hnext' : t.HasDirectory (place ++ [part]) := ⟨m', hnext⟩
                      simp [hup, hlen, hlen', hdir, hnext', hnext]

/-- Without links a path leads to the same place in two trees if the directories of the first are
directories of the second, and if the place is no directory in the second alone. -/
theorem walk_congr {t t' : Tree} (ht : t.LinkFree) (ht' : t'.LinkFree)
    (hdirs : ∀ p, t.HasDirectory p → t'.HasDirectory p) {f f' : Bool} {fuel links links' : Nat}
    {place q : Place} {ps : List String} (h : walk t f fuel links place ps = .ok q)
    (hq : t'.HasDirectory q → t.HasDirectory q) : walk t' f' fuel links' place ps = .ok q := by
  induction fuel generalizing place ps with
  | zero => cases h
  | succ fuel ih =>
      cases ps with
      | nil => exact h
      | cons part rest =>
          rw [walk_cons_eq_ok ht] at h
          rw [walk_cons_eq_ok ht']
          obtain ⟨hplace, ⟨hup, h⟩ | ⟨hup, hlen, ⟨hnext, h⟩ | ⟨hnext, hrest, rfl⟩⟩⟩ := h
          · exact ⟨hdirs _ hplace, .inl ⟨hup, ih h⟩⟩
          · exact ⟨hdirs _ hplace, .inr ⟨hup, hlen, .inl ⟨hdirs _ hnext, ih h⟩⟩⟩
          · exact ⟨hdirs _ hplace, .inr ⟨hup, hlen, .inr ⟨fun h => hnext (hq h), hrest, rfl⟩⟩⟩

def enter (place : Place) (part : String) : Place :=
  if part = ".." then place.dropLast else place ++ [part]

/-- The place that a path leads to from a working directory if no links are on its way. -/
def goal (working : Place) (path : String) : Place :=
  (Path.parts path).foldl enter (if Path.isAbsolute path then [] else working)

theorem eq_foldl_of_walk {t : Tree} (ht : t.LinkFree) {f : Bool} {fuel links : Nat} {place q : Place}
    {ps : List String} (h : walk t f fuel links place ps = .ok q) : q = ps.foldl enter place := by
  induction fuel generalizing place ps with
  | zero => cases h
  | succ fuel ih =>
      cases ps with
      | nil => exact (Except.ok.inj h).symm
      | cons part rest =>
          rw [walk_cons_eq_ok ht] at h
          rw [List.foldl_cons, enter]
          obtain ⟨-, ⟨hup, h⟩ | ⟨hup, -, ⟨-, h⟩ | ⟨-, rfl, rfl⟩⟩⟩ := h
          · rw [if_pos hup]
            exact ih h
          · rw [if_neg hup]
            exact ih h
          · rw [if_neg hup]
            rfl

theorem getLast?_goal {path name : String} {init : List String} (hpath : Path.parts path = init ++ [name])
    (hname : name ≠ "..") (working : Place) :
    (goal working path).getLast? = some name := by
  rw [goal, hpath, List.foldl_append, List.foldl_cons, List.foldl_nil, enter, if_neg hname]
  exact List.getLast?_concat

namespace Disk

theorem resolve_eq_ok {d : Disk} {f : Bool} {path : String} {q : Place} (h : d.resolve f path = .ok q) :
    walk d.tree f (41 * (maxPath + 1)) maxLinks (if Path.isAbsolute path then [] else d.working)
      (Path.parts path) = .ok q := by
  unfold resolve at h
  split at h
  · cases h
  · split at h
    · cases h
    · split at h
      · cases h
      · exact h

/-- A path that is neither empty nor too long, and without the character of code 0, leads where its parts
lead. -/
theorem resolve_eq_walk {path : String}
    (h : path ≠ "" ∧ path.toList.contains '\x00' = false ∧ path.utf8ByteSize ≤ maxPath) (d : Disk) (f : Bool) :
    d.resolve f path = walk d.tree f (41 * (maxPath + 1)) maxLinks
      (if Path.isAbsolute path then [] else d.working) (Path.parts path) := by
  obtain ⟨hempty, hnul, hlong⟩ := h
  rw [resolve, if_neg hempty, if_neg (by rw [hnul]; exact Bool.false_ne_true), if_neg (Nat.not_lt.mpr hlong)]

/-- A path that is not empty leads nowhere, whatever stands in the tree, or it leads where its parts lead. -/
theorem resolve_cases (path : String) :
    path = "" ∨ (∃ e, e ≠ .notFound ∧ ∀ (d : Disk) f, d.resolve f path = .error e) ∨
      (path ≠ "" ∧ path.toList.contains '\x00' = false ∧ path.utf8ByteSize ≤ maxPath) := by
  by_cases hempty : path = ""
  · exact .inl hempty
  · cases hnul : path.toList.contains '\x00' with
    | true =>
        refine .inr (.inl ⟨.nulInPath, nofun, fun d f => ?_⟩)
        rw [resolve, if_neg hempty, if_pos hnul]
    | false =>
        by_cases hlong : path.utf8ByteSize ≤ maxPath
        · exact .inr (.inr ⟨hempty, rfl, hlong⟩)
        · refine .inr (.inl ⟨.nameTooLong, nofun, fun d f => ?_⟩)
          rw [resolve, if_neg hempty, if_neg (by rw [hnul]; exact Bool.false_ne_true),
            if_pos (Nat.not_le.mp hlong)]

theorem resolve_congr {d d' : Disk} (hd : d.tree.LinkFree) (hd' : d'.tree.LinkFree)
    (hworking : d'.working = d.working) (hdirs : ∀ p, d.tree.HasDirectory p → d'.tree.HasDirectory p)
    {f f' : Bool} {path : String} {q : Place} (h : d.resolve f path = .ok q)
    (hq : d'.tree.HasDirectory q → d.tree.HasDirectory q) : d'.resolve f' path = .ok q := by
  have hwalk := resolve_eq_ok h
  unfold resolve at h ⊢
  split at h
  · cases h
  · next h1 =>
      rw [if_neg h1]
      split at h
      · cases h
      · next h2 =>
          rw [if_neg h2]
          split at h
          · cases h
          · next h3 =>
              rw [if_neg h3, hworking]
              exact walk_congr hd hd' hdirs hwalk hq

theorem goal_of_resolve {d : Disk} (hd : d.tree.LinkFree) {f : Bool} {path : String} {q : Place}
    (h : d.resolve f path = .ok q) : q = goal d.working path :=
  eq_foldl_of_walk hd (resolve_eq_ok h)

/-! ### Looking -/

theorem entry?_eq_ok {d : Disk} {f : Bool} {path : String} {q : Place} {e : Entry} :
    d.entry? f path = .ok (q, e) ↔ d.resolve f path = .ok q ∧ d.tree.get? q = some e := by
  unfold entry?
  constructor
  · intro h
    split at h
    · cases h
    · next hq =>
        split at h
        · next he =>
            cases h
            exact ⟨hq, he⟩
        · cases h
  · rintro ⟨hq, he⟩
    simp only [hq, he]

/-- A file at a path: what it holds, and when it was last changed. -/
def HasFile (d : Disk) (path : String) (c : Content) (modified : Int) : Prop :=
  ∃ q, d.resolve true path = .ok q ∧ d.tree.get? q = some (.file c modified)

theorem HasFile.read {d : Disk} {path : String} {c : Content} {m : Int} (h : d.HasFile path c m) :
    d.read path = .ok c := by
  obtain ⟨q, hq, he⟩ := h
  rw [Disk.read, entry?_eq_ok.mpr ⟨hq, he⟩]

theorem HasFile.modified {d : Disk} {path : String} {c : Content} {m : Int} (h : d.HasFile path c m) :
    d.modified path = .ok m := by
  obtain ⟨q, hq, he⟩ := h
  rw [Disk.modified, entry?_eq_ok.mpr ⟨hq, he⟩]

/-! ### Making directories -/

/-- All that `d'` has more than `d` are directories. -/
structure Grown (d d' : Disk) : Prop where
  working : d'.working = d.working
  tree : Tree.Grown d.tree d'.tree

theorem Grown.refl (d : Disk) : Grown d d := ⟨rfl, .refl d.tree⟩

theorem Grown.trans {d e f : Disk} (h : Grown d e) (h' : Grown e f) : Grown d f :=
  ⟨h'.working.trans h.working, h.tree.trans h'.tree⟩

theorem grown_makeDirectory {d d' : Disk} {now : Int} {path : String}
    (h : d.makeDirectory now path = .ok d') : Grown d d' := by
  unfold makeDirectory at h
  cases hq : d.resolve false path with
  | error e =>
      rw [hq] at h
      cases h
  | ok q =>
      rw [hq] at h
      dsimp only at h
      cases hnone : d.tree.get? q with
      | some e =>
          rw [hnone] at h
          cases h
      | none =>
          rw [hnone] at h
          cases h
          refine ⟨rfl, fun p => ?_⟩
          by_cases hp : p = q
          · have hne : q ≠ [] := fun h => by rw [h] at hnone; cases hnone
            rw [hp]
            exact .inr ⟨hnone, now, get?_set_self _ hne⟩
          · exact .inl (get?_set_of_ne _ hp)

theorem grown_settled {d : Disk} {now : Int} {path : String} {made : Except FileError Disk}
    (h : made = d.makeDirectory now path) : Grown d (d.settled path made).1 := by
  cases made with
  | error e => exact .refl d
  | ok d' => exact grown_makeDirectory h.symm

theorem grown_makeDirectoriesFrom (now : Int) (fuel : Nat) (d : Disk) (path : String) :
    Grown d (makeDirectoriesFrom now fuel d path).1 := by
  induction fuel generalizing d path with
  | zero =>
      unfold makeDirectoriesFrom
      split
      · exact .refl d
      · split
        · next h _ _ => cases h
        · exact .refl d
        · exact grown_settled rfl
  | succ fuel ih =>
      unfold makeDirectoriesFrom
      split
      · exact .refl d
      · split
        · next above h _ _ =>
            cases h
            have ih := ih d above
            split
            · next h => rw [h] at ih; exact ih
            · next h => rw [h] at ih; exact ih.trans (grown_settled rfl)
        · exact .refl d
        · exact grown_settled rfl

theorem grown_makeDirectories (d : Disk) (now : Int) (path : String) :
    Grown d (d.makeDirectories now path).1 :=
  grown_makeDirectoriesFrom now path.length d path

theorem grown_of_makeDirectories {d d' : Disk} {now : Int} {path : String} {failure : Option FileError}
    (h : d.makeDirectories now path = (d', failure)) : Grown d d' := by
  have hgrown := grown_makeDirectories d now path
  rwa [h] at hgrown

/-! ### Writing and moving -/

theorem write_eq_ok {d d' : Disk} {now : Int} {path : String} {c : Content}
    (h : d.write now path c = .ok d') :
    ∃ q, d.resolve true path = .ok q ∧ ¬ d.tree.HasDirectory q ∧
      d' = d.changed (d.tree.set q (.file c now)) now (if (d.tree.get? q).isNone then [q] else []) := by
  unfold write at h
  cases hq : d.resolve true path with
  | error e =>
      rw [hq] at h
      cases h
  | ok q =>
      rw [hq] at h
      dsimp only at h
      split at h
      · cases h
      · next hno => exact ⟨q, rfl, fun ⟨m, hm⟩ => hno m hm, (Except.ok.inj h).symm⟩

theorem rename_eq_ok {d d' : Disk} {now : Int} {source target : String} (h : d.rename now source target = .ok d') :
    ∃ p e q, d.resolve false source = .ok p ∧ d.tree.get? p = some e ∧ d.resolve false target = .ok q ∧
      ¬ d.tree.HasDirectory q ∧
      d' = d.changed ((d.tree.erase p).set q e) now (if p = q then [] else [p, q]) := by
  unfold rename at h
  split at h
  · cases h
  · cases h
  · next p e q hp hq =>
      obtain ⟨hp, he⟩ := entry?_eq_ok.mp hp
      split at h
      · cases h
      · next hno => exact ⟨p, e, q, hp, he, hq, fun ⟨m, hm⟩ => hno m hm, (Except.ok.inj h).symm⟩

theorem linkFree_write {d d' : Disk} (hd : d.tree.LinkFree) {now : Int} {path : String} {c : Content}
    (h : d.write now path c = .ok d') : d'.tree.LinkFree := by
  obtain ⟨q, -, -, rfl⟩ := write_eq_ok h
  exact hd.set q fun _ => Entry.noConfusion

theorem linkFree_rename {d d' : Disk} (hd : d.tree.LinkFree) {now : Int} {source target : String}
    (h : d.rename now source target = .ok d') : d'.tree.LinkFree := by
  obtain ⟨p, e, q, -, he, -, -, rfl⟩ := rename_eq_ok h
  exact (hd.erase p).set q fun target hlink => hd p target (hlink ▸ he)

theorem linkFree_remove {d d' : Disk} (hd : d.tree.LinkFree) {now : Int} {path : String}
    (h : d.remove now path = .ok d') : d'.tree.LinkFree := by
  unfold Disk.remove at h
  split at h
  · cases h
  · cases h
  · next p _ _ _ =>
      cases h
      exact hd.erase p

theorem hasFile_of_write {d d' : Disk} (hd : d.tree.LinkFree) {now : Int} {path : String} {c : Content}
    (h : d.write now path c = .ok d') : d'.HasFile path c now := by
  have hd' := linkFree_write hd h
  obtain ⟨q, hq, hdir, rfl⟩ := write_eq_ok h
  have hne : q ≠ [] := fun h => hdir ⟨0, h ▸ get?_nil d.tree⟩
  have hdirs := hasDirectory_set hdir (e := .file c now) fun _ => Entry.noConfusion
  refine ⟨q, ?_, get?_set_self _ hne⟩
  exact resolve_congr hd hd' rfl (fun p => (hdirs p).mpr) hq (hdirs q).mp

theorem get?_write {d d' : Disk} (hd : d.tree.LinkFree) {now : Int} {path : String} {c : Content}
    (h : d.write now path c = .ok d') {init : List String} {name : String}
    (hpath : Path.parts path = init ++ [name]) (hname : name ≠ "..") {p : Place}
    (hp : p.getLast? ≠ some name) : d'.tree.get? p = d.tree.get? p := by
  obtain ⟨q, hq, -, rfl⟩ := write_eq_ok h
  refine get?_set_of_ne _ fun hpq => hp ?_
  rw [hpq, goal_of_resolve hd hq]
  exact getLast?_goal hpath hname d.working

/-- A file that is moved leaves its place for the other one, and every directory stays. -/
theorem rename_eq_ok_of_hasFile {d d' : Disk} (hd : d.tree.LinkFree) {now : Int} {source target : String}
    {c : Content} {m : Int} (hfile : d.HasFile source c m) (h : d.rename now source target = .ok d') :
    ∃ p q, d.resolve false source = .ok p ∧ d.resolve false target = .ok q ∧ ¬ d.tree.HasDirectory q ∧
      d' = d.changed ((d.tree.erase p).set q (.file c m)) now (if p = q then [] else [p, q]) ∧
      ∀ r, d'.tree.HasDirectory r ↔ d.tree.HasDirectory r := by
  obtain ⟨p', e, q, hp', he, hq, hqdir, rfl⟩ := rename_eq_ok h
  obtain ⟨p, hp, hc⟩ := hfile
  obtain rfl : p = p' := by
    have hnofollow : d.resolve false source = .ok p := resolve_congr hd hd rfl (fun _ => id) hp id
    rw [hp'] at hnofollow
    exact (Except.ok.inj hnofollow).symm
  obtain rfl : Entry.file c m = e := Option.some.inj (hc.symm.trans he)
  have hpdir : ¬ d.tree.HasDirectory p := fun ⟨m, hm⟩ => by
    rw [hc] at hm
    cases hm
  have herase := hasDirectory_erase hpdir
  have hset := hasDirectory_set (mt (herase q).mp hqdir) (e := .file c m) fun _ => Entry.noConfusion
  exact ⟨p, q, hp', hq, hqdir, rfl, fun r => (hset r).trans (herase r)⟩

theorem hasFile_of_rename {d d' : Disk} (hd : d.tree.LinkFree) {now : Int} {source target : String} {c : Content}
    {m : Int} (hfile : d.HasFile source c m) (h : d.rename now source target = .ok d') :
    d'.HasFile target c m := by
  have hd' := linkFree_rename hd h
  obtain ⟨p, q, -, hq, hqdir, rfl, hdirs⟩ := rename_eq_ok_of_hasFile hd hfile h
  have hne : q ≠ [] := fun h => hqdir ⟨0, h ▸ get?_nil d.tree⟩
  refine ⟨q, ?_, get?_set_self _ hne⟩
  exact resolve_congr hd hd' rfl (fun r => (hdirs r).mpr) hq (hdirs q).mp

end Disk

end SignOn.Files
