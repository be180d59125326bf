import SignOn.Proofs.Thinning

/-! # Directories that last

What stays of the way to a directory while files come and go.

* `Disk.Steady`: all directories are kept, and there are no new links.  Making directories, writing and removing are
  of this kind, and so is moving a file.
* `Disk.Direct`: the path leads through no link.  A directory that such a path leads to stands at the `goal` of the
  path (`Disk.home_of_direct`), and it is found there as long as the disk is steady (`Disk.names_of_steady`).
* `Disk.resolve_sibling`: a path that leads to a name in a directory leads to each shorter name there as well. -/

namespace SignOn.Files

open SignOn.Files.Tree

variable {t t' : Tree} {f : Bool} {fuel links : Nat} {place p q : Place} {ps : List String}

/-! ### Trees that keep their directories -/

/-- Directories are kept, and there are no new links. -/
structure Tree.Steady (t t' : Tree) : Prop where
  directories : ∀ p, t.HasDirectory p → t'.HasDirectory p
  links : ∀ p target, t'.get? p = some (.link target) → t.get? p = some (.link target)

namespace Tree.Steady

theorem refl (t : Tree) : Steady t t := ⟨fun _ h => h, fun _ _ h => h⟩

theorem trans {u : Tree} (h : Steady t t') (h' : Steady t' u) : Steady t u :=
  ⟨fun p hp => h'.directories p (h.directories p hp), fun p target hp => h.links p target (h'.links p target hp)⟩

theorem of_grown (h : t.Grown t') : Steady t t' :=
  ⟨fun _ => h.hasDirectory, fun p _ hp => (h.get?_iff p fun _ => Entry.noConfusion).mp hp⟩

theorem of_thinned (h : t.Thinned t') : Steady t t' :=
  ⟨fun _ => h.keeps_directory, fun _ _ => h.get?⟩

theorem set (hp : ¬ t.HasDirectory p) (c : Content) (m : Int) : Steady t (t.set p (.file c m)) := by
  have hroot : p ≠ [] := fun hroot => hp ⟨0, hroot ▸ get?_nil t⟩
  constructor
  · intro r hr
    have hne : r ≠ p := fun heq => hp (heq ▸ hr)
    obtain ⟨n, hn⟩ := hr
    exact ⟨n, (get?_set_of_ne _ hne).trans hn⟩
  · intro r target hr
    by_cases heq : r = p
    · rw [heq, get?_set_self _ hroot] at hr
      cases hr
    · rwa [get?_set_of_ne _ heq] at hr

end Tree.Steady

/-! ### Ways without links -/

/-- No link stands where the parts lead to, one after the other. -/
def Tree.Direct (t : Tree) (place : Place) (ps : List String) : Prop :=
  ∀ init, init <+: ps → ∀ target, t.get? (init.foldl enter place) ≠ some (.link target)

theorem Tree.Direct.of_steady (h : t.Direct place ps) (hsteady : t.Steady t') : t'.Direct place ps :=
  fun init hinit target hlink => h init hinit target (hsteady.links _ target hlink)

theorem Tree.Direct.rest {part : String} (h : t.Direct place (part :: ps)) : t.Direct (enter place part) ps :=
  fun init hinit => h (part :: init) (List.cons_prefix_cons.mpr ⟨rfl, hinit⟩)

theorem Tree.Direct.head {part : String} (h : t.Direct place (part :: ps)) (hup : part ≠ "..") (target : String) :
    t.get? (place ++ [part]) ≠ some (.link target) := by
  have hfirst := h [part] (List.cons_prefix_cons.mpr ⟨rfl, List.nil_prefix⟩) target
  rwa [List.foldl_cons, List.foldl_nil, enter, if_neg hup] at hfirst

theorem Way.eq_of_direct (h : Way t f q fuel links place ps) (hdirect : t.Direct place ps) :
    q = ps.foldl enter place := by
  induction h with
  | here => rfl
  | up hdir h ih => exact ih hdirect.rest
  | down hlook hnext h ih =>
      have hrest := hdirect.rest
      rw [enter, if_neg hlook.notUp] at hrest
      rw [List.foldl_cons, enter, if_neg hlook.notUp]
      exact ih hrest
  | last hlook hnext hq => rw [hq, List.foldl_cons, List.foldl_nil, enter, if_neg hlook.notUp]
  | stop hlook hlink => exact absurd hlink (hdirect.head hlook.notUp _)
  | through hlook hlink => exact absurd hlink (hdirect.head hlook.notUp _)

/-- The way to a directory is open as long as there are all directories, if it leads through no links. -/
theorem Way.of_steady (h : Way t f q fuel links place ps) (hdirect : t.Direct place ps) (hq : t.HasDirectory q)
    (hsteady : t.Steady t') : Way t' f q fuel links place ps := by
  induction h with
  | here => exact .here
  | up hdir h ih => exact .up (hsteady.directories _ hdir) (ih hdirect.rest)
  | down hlook hnext h ih =>
      have hrest := hdirect.rest
      rw [enter, if_neg hlook.notUp] at hrest
      exact .down ⟨hsteady.directories _ hlook.directory, hlook.notUp, hlook.short⟩ (hsteady.directories _ hnext)
        (ih hrest)
  | last hlook hnext heq =>
      subst heq
      obtain ⟨m, hm⟩ := hq
      obtain ⟨c, m, hfile⟩ := hnext _ hm
      cases hfile
  | stop hlook hlink => exact absurd hlink (hdirect.head hlook.notUp _)
  | through hlook hlink => exact absurd hlink (hdirect.head hlook.notUp _)

/-- Where a path leads to a name in a directory, it leads to another name there as well, unless a directory has this
name. -/
theorem Way.sibling {name other : String} (hname : name ≠ "..") (hother : other ≠ "..")
    (hlen : other.utf8ByteSize ≤ name.utf8ByteSize) (h : Way t f q fuel links place (ps ++ [name])) :
    ∃ above, (q = above ++ [name] ∨ f = true ∧ ∃ target, t.get? (above ++ [name]) = some (.link target)) ∧
      (t.HasDirectory (above ++ [other]) ∨ Way t false (above ++ [other]) fuel links place (ps ++ [other])) := by
  induction fuel generalizing links place ps with
  | zero => cases h
  | succ fuel ih =>
      cases ps with
      | nil =>
          obtain ⟨hlook, hq⟩ := h.of_name hname
          refine ⟨place, hq, ?_⟩
          have hlook' : Looks t place other := ⟨hlook.directory, hother, Nat.le_trans hlen hlook.short⟩
          cases hentry : t.get? (place ++ [other]) with
          | none => exact .inr (.last hlook' (fun e he => by cases hentry.symm.trans he) rfl)
          | some e =>
              cases e with
              | directory m => exact .inl ⟨m, hentry⟩
              | link target => exact .inr (.stop hlook' hentry rfl rfl)
              | file c m =>
                  exact .inr (.last hlook' (fun e he => ⟨c, m, Option.some.inj (he.symm.trans hentry)⟩) rfl)
      | cons part rest =>
          have hmore : rest ++ [name] ≠ [] := List.concat_ne_nil name rest
          have hmore' : rest ++ [other] ≠ [] := List.concat_ne_nil other rest
          rw [List.cons_append] at h ⊢
          generalize hps : rest ++ [name] = more at hmore h
          cases h with
          | up hdir h =>
              subst hps
              obtain ⟨above, hq, hway⟩ := ih h
              exact ⟨above, hq, hway.imp_right fun hway => .up hdir hway⟩
          | down hlook hnext h =>
              subst hps
              obtain ⟨above, hq, hway⟩ := ih h
              exact ⟨above, hq, hway.imp_right fun hway => .down hlook hnext hway⟩
          | last => exact absurd rfl hmore
          | stop => exact absurd rfl hmore
          | through hlook hlink hon h =>
              subst hps
              rw [← List.append_assoc] at h
              obtain ⟨above, hq, hway⟩ := ih h
              refine ⟨above, hq, hway.imp_right fun hway => .through hlook hlink (fun hnil => absurd hnil hmore') ?_⟩
              rwa [← List.append_assoc]

namespace Disk

variable {d d' : Disk} {directory name other : String} {above : Place}

/-- Directories are kept, and there are no new links. -/
structure Steady (d d' : Disk) : Prop where
  working : d'.working = d.working
  tree : d.tree.Steady d'.tree

namespace Steady

theorem refl (d : Disk) : Steady d d := ⟨rfl, .refl d.tree⟩

theorem trans {d'' : Disk} (h : Steady d d') (h' : Steady d' d'') : Steady d d'' :=
  ⟨h'.working.trans h.working, h.tree.trans h'.tree⟩

theorem of_grown (h : Grown d d') : Steady d d' := ⟨h.working, .of_grown h.tree⟩

theorem of_thinned (h : Thinned d d') : Steady d d' := ⟨h.working, .of_thinned h.tree⟩

theorem of_write {now : Int} {path : String} {c : Content} (h : d.write now path c = .ok d') : Steady d d' := by
  obtain ⟨q, -, hno, rfl⟩ := write_eq_ok h
  exact ⟨rfl, .set hno c now⟩

end Steady

/-- A path leads through no link. -/
def Direct (d : Disk) (path : String) : Prop :=
  d.tree.Direct (if Path.isAbsolute path then [] else d.working) (Path.parts path)

theorem Direct.of_steady (h : d.Direct directory) (hsteady : d.Steady d') : d'.Direct directory := by
  unfold Direct at h ⊢
  rw [hsteady.working]
  exact Tree.Direct.of_steady h hsteady.tree

theorem home_of_direct (hdirect : d.Direct directory) (h : d.home directory = .ok above) :
    above = goal d.working directory := by
  unfold home at h
  split at h
  · next hempty =>
      subst hempty
      obtain rfl := Except.ok.inj h
      rfl
  · exact (resolve_eq_ok_iff.mp h).2.eq_of_direct hdirect

/-- A directory that has been found by a path without links is found again. -/
theorem names_of_steady (hnamed : directory ≠ "") (hdirect : d.Direct directory) (hhome : d.home directory = .ok above)
    (hdir : d.tree.HasDirectory above) (hsteady : d.Steady d') :
    d'.home directory = .ok above ∧ d'.tree.HasDirectory above ∧ d'.names directory = .ok (d'.tree.names above) := by
  rw [home, if_neg hnamed] at hhome ⊢
  obtain ⟨husable, hway⟩ := resolve_eq_ok_iff.mp hhome
  have hway' := hway.of_steady hdirect hdir hsteady.tree
  rw [← hsteady.working] at hway'
  have hhome' := resolve_eq_ok_iff.mpr ⟨husable, hway'⟩
  obtain ⟨m, hm⟩ := hsteady.tree.directories above hdir
  refine ⟨hhome', ⟨m, hm⟩, ?_⟩
  rw [Disk.names, entry?_eq_ok.mpr ⟨hhome', hm⟩]

/-- A path that leads to a name in a directory leads to a shorter name there, unless a directory has this name. -/
theorem resolve_sibling (hname : Path.Simple name) (hother : Path.Simple other)
    (hlen : other.utf8ByteSize ≤ name.utf8ByteSize)
    (husable : Path.join directory other ≠ "" ∧ (Path.join directory other).toList.contains '\x00' = false ∧
      (Path.join directory other).utf8ByteSize ≤ maxPath)
    (hlink : f = true → ∀ p target, p.getLast? = some name → d.tree.get? p ≠ some (.link target))
    (h : d.resolve f (Path.join directory name) = .ok (above ++ [name]))
    (hno : ¬ d.tree.HasDirectory (above ++ [other])) :
    d.resolve false (Path.join directory other) = .ok (above ++ [other]) := by
  obtain ⟨-, hway⟩ := resolve_eq_ok_iff.mp h
  rw [hname.parts_join, Path.isAbsolute_join directory hname.plain.not_isAbsolute] at hway
  obtain ⟨above', hq, hsibling⟩ := hway.sibling hname.ne_up hother.ne_up hlen
  have habove : above = above' := by
    rcases hq with hq | ⟨hfollow, target, hentry⟩
    · exact List.append_cancel_right hq
    · exact absurd hentry (hlink hfollow _ target List.getLast?_concat)
  subst habove
  refine resolve_eq_ok_iff.mpr ⟨husable, ?_⟩
  rw [hother.parts_join, Path.isAbsolute_join directory hother.plain.not_isAbsolute]
  exact hsibling.resolve_left hno

/-- The last part of a path is the name of the place that it leads to, unless a link of this name is followed. -/
theorem resolve_name {path : String} {init : List String} (hparts : Path.parts path = init ++ [name])
    (hup : name ≠ "..") (h : d.resolve f path = .ok q) :
    ∃ above, q = above ++ [name] ∨ f = true ∧ ∃ target, d.tree.get? (above ++ [name]) = some (.link target) := by
  have hway := (resolve_eq_ok_iff.mp h).2
  rw [hparts] at hway
  obtain ⟨_, _, above, -, hlast⟩ := hway.exists_above
  exact ⟨above, (hlast.of_name hup).2⟩

/-- A file that has been written is found at its path, whether links are followed or not, if none has its name. -/
theorem get?_of_write {path : String} {init : List String} {now : Int} {c : Content}
    (hparts : Path.parts path = init ++ [name]) (hup : name ≠ "..")
    (hlinks : ∀ p target, p.getLast? = some name → d.tree.get? p ≠ some (.link target))
    (hwrite : d.write now path c = .ok d') (hq : d'.resolve false path = .ok q) :
    d'.tree.get? q = some (.file c now) := by
  have hlinks' : ∀ p target, p.getLast? = some name → d'.tree.get? p ≠ some (.link target) :=
    fun p target hp hlink => hlinks p target hp ((Steady.of_write hwrite).tree.links p target hlink)
  obtain ⟨above, hplace⟩ := resolve_name hparts hup hq
  obtain rfl := hplace.resolve_right fun h => Bool.false_ne_true h.1
  have hfollow := resolve_follow hq fun target => hlinks' _ target List.getLast?_concat
  obtain ⟨r, hr, hno, hd'⟩ := write_eq_ok hwrite
  have hfile : d.tree.AtMostFile r := by
    refine atMostFile_of_not hno fun target hlink => ?_
    obtain ⟨above', rfl | ⟨-, target', hlink'⟩⟩ := resolve_name hparts hup hr
    · exact hlinks _ target List.getLast?_concat hlink
    · exact hlinks _ target' List.getLast?_concat hlink'
  have hways : d.tree.SameWays d'.tree := by
    rw [hd']
    exact hfile.sameWays_set c now
  have hworking : d'.working = d.working := (Steady.of_write hwrite).working
  obtain rfl := Except.ok.inj (hfollow.symm.trans (resolve_of_sameWays hworking hways hr))
  rw [hd']
  exact get?_set_self _ hfile.ne_nil

end Disk

end SignOn.Files
