import SignOn.Proofs.FileNames

/-! # Names in a directory

* `Looks` has one equation for each kind of entry that a part of a path may lead to (`Looks.walk_down` and others).
* `Way` says how a path leads to a place, part by part and through links.  A path is followed along such a way, if
  there is one (`way_of_walk`, `Way.walk_eq`).
* A path with one more name leads where the path itself leads, and from there to the name
  (`Way.exists_above`).  So the path of a name in a directory leads into the `Disk.home` of the directory, or on
  through a link of that name (`Disk.resolve_join`).
* Trees with the `Tree.SameWays` differ in files at most, and lead every path to the same place
  (`Way.of_sameWays`, `Disk.resolve_of_sameWays`). -/

namespace SignOn

namespace Path

/-- A name of one part, which counts and does not lead upwards. -/
structure Simple (p : String) : Prop where
  whole : '/' ∉ p.toList
  plain : Plain p

namespace Simple

variable {p : String}

theorem rawParts_eq (h : Simple p) : rawParts p = [p] := by
  rw [rawParts, Text.split, Text.splitAt_of_not_mem h.whole, List.map_singleton, String.ofList_toList]

theorem parts_eq (h : Simple p) : parts p = [p] := by
  rw [h.plain.parts_eq, h.rawParts_eq]

theorem ne_up (h : Simple p) : p ≠ ".." :=
  (h.plain p (h.rawParts_eq ▸ List.mem_singleton_self p)).2.2

theorem of_length (hslash : '/' ∉ p.toList) (hlen : 3 ≤ p.length) : Simple p := by
  refine ⟨hslash, fun part hpart => ?_⟩
  rw [rawParts, Text.split, Text.splitAt_of_not_mem hslash, List.map_singleton, String.ofList_toList,
    List.mem_singleton] at hpart
  subst hpart
  refine ⟨?_, ?_, ?_⟩ <;> rintro rfl <;> exact absurd hlen (by decide)

theorem parts_join (h : Simple p) (directory : String) : parts (join directory p) = parts directory ++ [p] := by
  rw [Path.parts_join directory h.plain.not_isAbsolute, h.parts_eq]

end Simple

theorem join_append (directory : String) {p : String} (hp : isAbsolute p = false) {s : String}
    (hps : isAbsolute (p ++ s) = false) : join directory p ++ s = join directory (p ++ s) := by
  unfold join
  rw [hp, hps]
  split
  · rfl
  · split <;> simp only [String.append_assoc]

theorem exists_join_eq_append (directory : String) {p : String} (hp : isAbsolute p = false) :
    ∃ s, join directory p = directory ++ s := by
  unfold join
  rw [hp]
  split
  · next h =>
      rw [h.resolve_left Bool.false_ne_true]
      exact ⟨p, (String.empty_append).symm⟩
  · split
    · exact ⟨p, rfl⟩
    · exact ⟨"/" ++ p, String.append_assoc⟩

end Path

namespace Files

open SignOn.Files.Tree

/-! ### Ways -/

/-- A part of a path may be looked up at a place. -/
structure Looks (t : Tree) (place : Place) (part : String) : Prop where
  directory : t.HasDirectory place
  notUp : part ≠ ".."
  short : part.utf8ByteSize ≤ maxName

/-- What stands at a place, if anything, is a file. -/
def Tree.AtMostFile (t : Tree) (p : Place) : Prop :=
  ∀ e, t.get? p = some e → ∃ c m, e = .file c m

section

variable {t : Tree} {place : Place}

theorem walk_up (hdir : t.HasDirectory place) (f : Bool) (fuel links : Nat) (rest : List String) :
    walk t f (fuel + 1) links place (".." :: rest) = walk t f fuel links place.dropLast rest := by
  obtain ⟨m, hm⟩ := hdir
  simp only [walk, hm, if_true]

namespace Looks

variable {part : String} (h : Looks t place part) (f : Bool) (fuel links : Nat) (rest : List String)

include h

theorem walk_down (hnext : t.HasDirectory (place ++ [part])) :
    walk t f (fuel + 1) links place (part :: rest) = walk t f fuel links (place ++ [part]) rest := by
  obtain ⟨⟨m, hm⟩, hup, hlen⟩ := h
  obtain ⟨m', hm'⟩ := hnext
  simp only [walk, hm, hm', if_neg hup, if_neg (Nat.not_lt.mpr hlen)]

theorem walk_missing (hnext : t.get? (place ++ [part]) = none) :
    walk t f (fuel + 1) links place (part :: rest) =
      if rest = [] then .ok (place ++ [part]) else .error .notFound := by
  obtain ⟨⟨m, hm⟩, hup, hlen⟩ := h
  simp only [walk, hm, hnext, if_neg hup, if_neg (Nat.not_lt.mpr hlen)]

theorem walk_last (hnext : t.AtMostFile (place ++ [part])) :
    walk t f (fuel + 1) links place [part] = .ok (place ++ [part]) := by
  cases hentry : t.get? (place ++ [part]) with
  | none => exact h.walk_missing f fuel links [] hentry
  | some e =>
      obtain ⟨c, m', rfl⟩ := hnext e hentry
      obtain ⟨⟨m, hm⟩, hup, hlen⟩ := h
      simp only [walk, hm, hentry, if_neg hup, if_neg (Nat.not_lt.mpr hlen), if_true]

variable {target : String} (hlink : t.get? (place ++ [part]) = some (.link target))

include hlink

theorem walk_stop : walk t false (fuel + 1) links place [part] = .ok (place ++ [part]) := by
  obtain ⟨⟨m, hm⟩, hup, hlen⟩ := h
  simp [walk, hm, hlink, hup, Nat.not_lt.mpr hlen]

theorem walk_through (hon : rest = [] → f = true) :
    walk t f (fuel + 1) (links + 1) place (part :: rest) =
      walk t f fuel links (if Path.isAbsolute target then [] else place) (Path.parts target ++ rest) := by
  obtain ⟨⟨m, hm⟩, hup, hlen⟩ := h
  simp only [walk, hm, hlink, if_neg hup, if_neg (Nat.not_lt.mpr hlen)]
  exact if_neg fun hstop => hstop.2 (hon hstop.1)

end Looks

end

/-- How a path leads to the place `q`, part by part.  The last part is followed through a link only if
`follow` says so. -/
inductive Way (t : Tree) (follow : Bool) (q : Place) : (fuel links : Nat) → Place → List String → Prop
  | here {fuel links : Nat} : Way t follow q (fuel + 1) links q []
  | up {fuel links : Nat} {place : Place} {rest : List String} (hdir : t.HasDirectory place)
      (h : Way t follow q fuel links place.dropLast rest) : Way t follow q (fuel + 1) links place (".." :: rest)
  | down {fuel links : Nat} {place : Place} {part : String} {rest : List String} (hlook : Looks t place part)
      (hnext : t.HasDirectory (place ++ [part])) (h : Way t follow q fuel links (place ++ [part]) rest) :
      Way t follow q (fuel + 1) links place (part :: rest)
  | last {fuel links : Nat} {place : Place} {part : String} (hlook : Looks t place part)
      (hnext : t.AtMostFile (place ++ [part])) (hq : q = place ++ [part]) :
      Way t follow q (fuel + 1) links place [part]
  | stop {fuel links : Nat} {place : Place} {part target : String} (hlook : Looks t place part)
      (hlink : t.get? (place ++ [part]) = some (.link target)) (hstop : follow = false) (hq : q = place ++ [part]) :
      Way t follow q (fuel + 1) links place [part]
  | through {fuel links : Nat} {place : Place} {part target : String} {rest : List String}
      (hlook : Looks t place part) (hlink : t.get? (place ++ [part]) = some (.link target))
      (hon : rest = [] → follow = true)
      (h : Way t follow q fuel links (if Path.isAbsolute target then [] else place) (Path.parts target ++ rest)) :
      Way t follow q (fuel + 1) (links + 1) place (part :: rest)

section

variable {t t' : Tree} {f : Bool} {fuel links : Nat} {place q : Place} {ps : List String}

theorem way_of_walk (h : walk t f fuel links place ps = .ok q) : Way t f q fuel links place ps := by
  induction fuel generalizing links place ps with
  | zero => cases h
  | succ fuel ih =>
      cases ps with
      | nil =>
          obtain rfl := Except.ok.inj h
          exact .here
      | cons part rest =>
          rw [walk] at h
          -- The cases follow the branches of `walk`, and each way on is one constructor of `Way`.
          split at h
          · next m hplace =>
              split at h
              · next hup =>
                  rw [hup]
                  exact .up ⟨m, hplace⟩ (ih h)
              · next hup =>
                  split at h
                  · cases h
                  · next hlen =>
                      have hlook : Looks t place part := ⟨⟨m, hplace⟩, hup, Nat.not_lt.mp hlen⟩
                      have hlast : t.AtMostFile (place ++ [part]) → rest = [] → place ++ [part] = q →
                          Way t f q (fuel + 1) links place (part :: rest) := by
                        rintro hfile rfl rfl
                        exact .last hlook hfile rfl
                      dsimp only at h
                      split at h
                      · next hnext =>
                          split at h
                          · next hrest =>
                              refine hlast (fun e he => ?_) hrest (Except.ok.inj h)
                              rw [hnext] at he
                              cases he
                          · cases h
                      · next target hlink =>
                          split at h
                          · next hstop =>
                              obtain ⟨rfl, hstop⟩ := hstop
                              obtain rfl := Except.ok.inj h
                              exact .stop hlook hlink (Bool.eq_false_iff.mpr hstop) rfl
                          · next hon =>
                              split at h
                              · cases h
                              · refine .through hlook hlink (fun hrest => ?_) (ih h)
                                exact Decidable.not_not.mp fun hf => hon ⟨hrest, hf⟩
                      · next c m hnext =>
                          split at h
                          · next hrest =>
                              refine hlast (fun e he => ?_) hrest (Except.ok.inj h)
                              exact ⟨c, m, Option.some.inj (he.symm.trans hnext)⟩
                          · cases h
                      · next m' hnext => exact .down hlook ⟨m', hnext⟩ (ih h)
          · cases h
          · cases h

theorem Way.walk_eq (h : Way t f q fuel links place ps) : walk t f fuel links place ps = .ok q := by
  induction h with
  | here => rfl
  | up hdir h ih => rw [walk_up hdir, ih]
  | down hlook hnext h ih => rw [hlook.walk_down _ _ _ _ hnext, ih]
  | last hlook hnext hq => rw [hlook.walk_last _ _ _ hnext, hq]
  | stop hlook hlink hstop hq => rw [hstop, hlook.walk_stop _ _ hlink, hq]
  | through hlook hlink hon h ih => rw [hlook.walk_through _ _ _ _ hlink hon, ih]

/-- A path with one more name leads on from where the path leads through all its links. -/
theorem Way.exists_above {name : String} (h : Way t f q fuel links place (ps ++ [name])) :
    ∃ fuel' links' above, Way t true above fuel links place ps ∧ Way t f q fuel' links' above [name] := by
  induction fuel generalizing links place ps with
  | zero => cases h
  | succ fuel ih =>
      cases ps with
      | nil => exact ⟨_, _, place, .here, h⟩
      | cons part rest =>
          have hmore : rest ++ [name] ≠ [] := List.concat_ne_nil name rest
          rw [List.cons_append] at h
          generalize hps : rest ++ [name] = more at hmore h
          cases h with
          | up hdir h =>
              subst hps
              obtain ⟨_, _, above, habove, hq⟩ := ih h
              exact ⟨_, _, above, .up hdir habove, hq⟩
          | down hlook hnext h =>
              subst hps
              obtain ⟨_, _, above, habove, hq⟩ := ih h
              exact ⟨_, _, above, .down hlook hnext habove, hq⟩
          | last => exact absurd rfl hmore
          | stop => exact absurd rfl hmore
          | through hlook hlink hon h =>
              subst hps
              rw [← List.append_assoc] at h
              obtain ⟨_, _, above, habove, hq⟩ := ih h
              exact ⟨_, _, above, .through hlook hlink (fun _ => rfl) habove, hq⟩

theorem Way.of_name {name : String} (hname : name ≠ "..") (h : Way t f q fuel links place [name]) :
    Looks t place name ∧
      (q = place ++ [name] ∨ f = true ∧ ∃ target, t.get? (place ++ [name]) = some (.link target)) := by
  cases h with
  | up => exact absurd rfl hname
  | down hlook hnext h =>
      cases h
      exact ⟨hlook, .inl rfl⟩
  | last hlook hnext hq => exact ⟨hlook, .inl hq⟩
  | stop hlook hlink hstop hq => exact ⟨hlook, .inl hq⟩
  | through hlook hlink hon h => exact ⟨hlook, .inr ⟨hon rfl, _, hlink⟩⟩

theorem Way.follow (h : Way t f q fuel links place ps) (hq : ∀ target, t.get? q ≠ some (.link target)) :
    Way t true q fuel links place ps := by
  induction h with
  | here => exact .here
  | up hdir h ih => exact .up hdir ih
  | down hlook hnext h ih => exact .down hlook hnext ih
  | last hlook hnext hq => exact .last hlook hnext hq
  | stop hlook hlink hstop heq =>
      subst heq
      exact absurd hlink (hq _)
  | through hlook hlink hon h ih => exact .through hlook hlink (fun _ => rfl) ih

/-! ### Trees that differ in files -/

/-- Two trees that differ in files at most. -/
def Tree.SameWays (t t' : Tree) : Prop :=
  ∀ p, t'.get? p = t.get? p ∨ (t.AtMostFile p ∧ t'.AtMostFile p)

theorem Tree.SameWays.trans {u v : Tree} (h : SameWays t u) (h' : SameWays u v) : SameWays t v := by
  intro p
  rcases h p with heq | ⟨ht, hu⟩
  · rcases h' p with heq' | ⟨hu, hv⟩
    · exact .inl (heq'.trans heq)
    · exact .inr ⟨fun e he => hu e (heq.trans he), hv⟩
  · rcases h' p with heq' | ⟨-, hv⟩
    · exact .inr ⟨ht, fun e he => hu e (heq'.symm.trans he)⟩
    · exact .inr ⟨ht, hv⟩

theorem Tree.atMostFile_of_not {p : Place} (hdir : ¬ t.HasDirectory p)
    (hlink : ∀ target, t.get? p ≠ some (.link target)) : t.AtMostFile p := by
  intro e he
  cases e with
  | file c m => exact ⟨c, m, rfl⟩
  | directory m => exact absurd ⟨m, he⟩ hdir
  | link target => exact absurd he (hlink target)

theorem Tree.AtMostFile.ne_nil {p : Place} (h : t.AtMostFile p) : p ≠ [] := by
  rintro rfl
  obtain ⟨c, m, hfile⟩ := h _ (get?_nil t)
  cases hfile

theorem Tree.AtMostFile.sameWays_set {p : Place} (h : t.AtMostFile p) (c : Content) (m : Int) :
    t.SameWays (t.set p (.file c m)) := by
  intro r
  by_cases hr : r = p
  · subst hr
    refine .inr ⟨h, fun e he => ⟨c, m, ?_⟩⟩
    rw [get?_set_self _ h.ne_nil] at he
    exact (Option.some.inj he).symm
  · exact .inl (get?_set_of_ne _ hr)

theorem Tree.AtMostFile.sameWays_erase {p : Place} (h : t.AtMostFile p) : t.SameWays (t.erase p) := by
  intro r
  by_cases hr : r = p
  · subst hr
    refine .inr ⟨h, fun e he => ?_⟩
    rw [get?_erase_self h.ne_nil] at he
    cases he
  · exact .inl (get?_erase_of_ne hr)

namespace Tree.SameWays

variable (h : SameWays t t')

include h

theorem get?_eq {p : Place} {e : Entry} (he : ∀ c m, e ≠ .file c m) (hp : t.get? p = some e) :
    t'.get? p = some e := by
  rcases h p with heq | ⟨hfile, -⟩
  · exact heq.trans hp
  · obtain ⟨c, m, hc⟩ := hfile e hp
    exact absurd hc (he c m)

theorem hasDirectory {p : Place} (hp : t.HasDirectory p) : t'.HasDirectory p := by
  obtain ⟨m, hm⟩ := hp
  exact ⟨m, h.get?_eq (fun _ _ => Entry.noConfusion) hm⟩

theorem atMostFile {p : Place} (hp : t.AtMostFile p) : t'.AtMostFile p := by
  rcases h p with heq | ⟨-, hfile⟩
  · exact fun e he => hp e (heq.symm.trans he)
  · exact hfile

theorem looks {part : String} (hlook : Looks t place part) : Looks t' place part :=
  ⟨h.hasDirectory hlook.directory, hlook.notUp, hlook.short⟩

end Tree.SameWays

/-- Such trees lead every path to the same place. -/
theorem Way.of_sameWays (hways : t.SameWays t') (h : Way t f q fuel links place ps) :
    Way t' f q fuel links place ps := by
  induction h with
  | here => exact .here
  | up hdir h ih => exact .up (hways.hasDirectory hdir) ih
  | down hlook hnext h ih => exact .down (hways.looks hlook) (hways.hasDirectory hnext) ih
  | last hlook hnext hq => exact .last (hways.looks hlook) (hways.atMostFile hnext) hq
  | stop hlook hlink hstop hq =>
      exact .stop (hways.looks hlook) (hways.get?_eq (fun _ _ => Entry.noConfusion) hlink) hstop hq
  | through hlook hlink hon h ih =>
      exact .through (hways.looks hlook) (hways.get?_eq (fun _ _ => Entry.noConfusion) hlink) hon ih

end

/-! ### Directories -/

namespace Disk

variable {d d' : Disk} {f : Bool} {path directory name : String} {q : Place}

/-- The place that the path of a directory leads to; the empty path stands for the working directory. -/
def home (d : Disk) (directory : String) : Except FileError Place :=
  if directory = "" then .ok d.working else d.resolve true directory

/-- A place is that of a name in the home of a directory. -/
def InHome (d : Disk) (directory name : String) (p : Place) : Prop :=
  ∃ above, d.home directory = .ok above ∧ p = above ++ [name]

theorem resolve_eq_ok_iff :
    d.resolve f path = .ok q ↔
      (path ≠ "" ∧ path.toList.contains '\x00' = false ∧ path.utf8ByteSize ≤ maxPath) ∧
        Way d.tree f q (41 * (maxPath + 1)) maxLinks (if Path.isAbsolute path then [] else d.working)
          (Path.parts path) := by
  constructor
  · intro h
    refine ⟨?_, way_of_walk (resolve_eq_ok h)⟩
    unfold resolve at h
    split at h
    · cases h
    · next hempty =>
        split at h
        · cases h
        · next hnul =>
            split at h
            · cases h
            · next hlong => exact ⟨hempty, Bool.eq_false_iff.mpr hnul, Nat.not_lt.mp hlong⟩
  · rintro ⟨hpath, hway⟩
    rw [resolve_eq_walk hpath]
    exact hway.walk_eq

theorem resolve_of_sameWays (hworking : d'.working = d.working) (hways : d.tree.SameWays d'.tree)
    (h : d.resolve f path = .ok q) : d'.resolve f path = .ok q := by
  rw [resolve_eq_ok_iff] at h ⊢
  rw [hworking]
  exact ⟨h.1, h.2.of_sameWays hways⟩

theorem resolve_follow (h : d.resolve f path = .ok q) (hq : ∀ target, d.tree.get? q ≠ some (.link target)) :
    d.resolve true path = .ok q := by
  rw [resolve_eq_ok_iff] at h ⊢
  exact ⟨h.1, h.2.follow hq⟩

theorem home_of_sameWays (hworking : d'.working = d.working) (hways : d.tree.SameWays d'.tree)
    (h : d.home directory = .ok q) : d'.home directory = .ok q := by
  unfold home at h ⊢
  split at h
  · next hempty => rw [if_pos hempty, hworking, h]
  · next hempty =>
      rw [if_neg hempty]
      exact resolve_of_sameWays hworking hways h

/-- The path of a name in a directory leads into the directory, or on through a link of that name. -/
theorem resolve_join (hname : Path.Simple name) (h : d.resolve f (Path.join directory name) = .ok q) :
    ∃ above, d.home directory = .ok above ∧ Looks d.tree above name ∧
      (q = above ++ [name] ∨ f = true ∧ ∃ target, d.tree.get? (above ++ [name]) = some (.link target)) := by
  have hrelative := hname.plain.not_isAbsolute
  obtain ⟨⟨-, hnul, hlong⟩, hway⟩ := resolve_eq_ok_iff.mp h
  rw [hname.parts_join, Path.isAbsolute_join directory hrelative] at hway
  obtain ⟨_, _, above, habove, hlast⟩ := hway.exists_above
  refine ⟨above, ?_, hlast.of_name hname.ne_up⟩
  unfold home
  split
  · next hempty =>
      subst hempty
      rw [Path.parts_empty] at habove
      cases habove
      rfl
  · next hempty =>
      obtain ⟨s, hs⟩ := Path.exists_join_eq_append directory hrelative
      rw [hs, String.toList_append, List.contains_append, Bool.or_eq_false_iff] at hnul
      rw [hs, String.utf8ByteSize_append] at hlong
      exact resolve_eq_ok_iff.mpr ⟨⟨hempty, hnul.1, by omega⟩, habove⟩

end Disk

end Files

end SignOn
