import SignOn.Proofs.Directories
import SignOn.Proofs.Removals

/-! # Trees that entries have been taken from

What becomes of paths when files and links are taken away, one after the other.

* `Tree.Thinned`: nothing has changed but that files and links are gone.  Where a path leads to an entry of the
  thinned tree, it has led to that entry before (`Disk.Thinned.entry?_eq`).
* `Disk.looked`: the places that are looked at on the way of a path, links followed.  As long as nothing has changed
  there, times of directories apart, the path leads to the same place (`walk_of_looked`), and to the same entry if the
  times have not changed either (`Disk.entry?_of_looked`).
* `Way.unique`: a path leads to one place only, whatever has been spent on the way before. -/

namespace SignOn.Files

open SignOn.Files.Tree

variable {t t' : Tree} {f : Bool} {fuel links : Nat} {place p q : Place} {ps : List String}

/-! ### Thinned trees -/

/-- Nothing has changed but that files and links have been taken away. -/
def Tree.Thinned (t t' : Tree) : Prop :=
  ∀ p, t'.get? p = t.get? p ∨ t'.get? p = none ∧ ¬ t.HasDirectory p

namespace Tree.Thinned

theorem refl (t : Tree) : Thinned t t := fun _ => .inl rfl

theorem erase (hp : ¬ t.HasDirectory p) : Thinned t (t.erase p) := by
  intro r
  by_cases hr : r = p
  · have hne : p ≠ [] := fun hroot => hp ⟨0, hroot ▸ get?_nil t⟩
    rw [hr]
    exact .inr ⟨get?_erase_self hne, hp⟩
  · exact .inl (get?_erase_of_ne hr)

variable (h : Thinned t t')

include h

theorem get? {e : Entry} (he : t'.get? p = some e) : t.get? p = some e := by
  rcases h p with hp | ⟨hp, -⟩
  · exact hp.symm.trans he
  · cases hp.symm.trans he

theorem hasDirectory (hp : t'.HasDirectory p) : t.HasDirectory p := by
  obtain ⟨m, hm⟩ := hp
  exact ⟨m, h.get? hm⟩

theorem keeps_directory (hp : t.HasDirectory p) : t'.HasDirectory p := by
  rcases h p with heq | ⟨-, hno⟩
  · obtain ⟨m, hm⟩ := hp
    exact ⟨m, heq.trans hm⟩
  · exact absurd hp hno

theorem trans {u : Tree} (h' : Thinned t' u) : Thinned t u := by
  intro r
  rcases h' r with heq | ⟨hnone, hno⟩
  · rcases h r with heq' | ⟨hnone, hno⟩
    · exact .inl (heq.trans heq')
    · exact .inr ⟨heq.trans hnone, hno⟩
  · exact .inr ⟨hnone, fun hr => hno (h.keeps_directory hr)⟩

theorem looks {part : String} (hlook : Looks t' place part) : Looks t place part :=
  ⟨h.hasDirectory hlook.directory, hlook.notUp, hlook.short⟩

end Tree.Thinned

theorem Way.of_thinned (hthin : t.Thinned t') (h : Way t' f q fuel links place ps) {e : Entry}
    (he : t'.get? q = some e) : Way t f q fuel links place ps := by
  induction h with
  | here => exact .here
  | up hdir h ih => exact .up (hthin.hasDirectory hdir) ih
  | down hlook hnext h ih => exact .down (hthin.looks hlook) (hthin.hasDirectory hnext) ih
  | last hlook hnext hq =>
      subst hq
      refine .last (hthin.looks hlook) (fun e' he' => ?_) rfl
      obtain ⟨c, m, hfile⟩ := hnext e he
      obtain rfl := Option.some.inj (he'.symm.trans (hthin.get? he))
      exact ⟨c, m, hfile⟩
  | stop hlook hlink hstop hq => exact .stop (hthin.looks hlook) (hthin.get? hlink) hstop hq
  | through hlook hlink hon h ih => exact .through (hthin.looks hlook) (hthin.get? hlink) hon ih

/-! ### What is looked at -/

/-- The places that are looked at on the way of a path, links followed. -/
def looked (t : Tree) : (fuel links : Nat) → Place → List String → List Place
  | 0, _, _, _ => []
  | _ + 1, _, place, [] => [place]
  | fuel + 1, links, place, part :: rest =>
    place ::
      match t.get? place with
      | some (.directory _) =>
        if part = ".." then looked t fuel links place.dropLast rest
        else if part.utf8ByteSize > maxName then []
        else
          (place ++ [part]) ::
            match t.get? (place ++ [part]) with
            | some (.directory _) => looked t fuel links (place ++ [part]) rest
            | some (.link target) =>
              match links with
              | 0 => []
              | links + 1 =>
                looked t fuel links (if Path.isAbsolute target then [] else place) (Path.parts target ++ rest)
            | _ => []
      | _ => []

/-- The same stands at a place of two trees, but for the times of a directory. -/
def Tree.Alike (t t' : Tree) (p : Place) : Prop :=
  t'.get? p = t.get? p ∨ t.HasDirectory p ∧ t'.HasDirectory p

theorem Tree.Alike.cases (h : t.Alike t' p) :
    (∃ m m', t.get? p = some (.directory m) ∧ t'.get? p = some (.directory m')) ∨
      ¬ t.HasDirectory p ∧ t'.get? p = t.get? p := by
  by_cases hdir : t.HasDirectory p
  · obtain ⟨m, hm⟩ := hdir
    rcases h with hsame | ⟨-, m', hm'⟩
    · exact .inl ⟨m, m, hm, hsame.trans hm⟩
    · exact .inl ⟨m, m', hm, hm'⟩
  · exact .inr ⟨hdir, h.resolve_right fun h => hdir h.1⟩

/-- Where two trees are alike in all that is looked at, a path leads to the same place or fails in the same way. -/
theorem walk_of_looked (h : ∀ r ∈ looked t fuel links place ps, t.Alike t' r) :
    walk t' f fuel links place ps = walk t f fuel links place ps := by
  induction fuel generalizing links place ps with
  | zero => rfl
  | succ fuel ih =>
      cases ps with
      | nil => rfl
      | cons part rest =>
          rw [looked] at h
          have hmore := fun r hr => h r (List.mem_cons_of_mem place hr)
          rw [walk, walk]
          -- `walk` asks of a directory only that it is one; other entries are the same in both trees.
          rcases (h place List.mem_cons_self).cases with ⟨m, m', hm, hm'⟩ | ⟨hdir, hsame⟩
          · rw [hm] at hmore
            rw [hm, hm']
            dsimp only at hmore ⊢
            split
            · next hup =>
                rw [if_pos hup] at hmore
                exact ih hmore
            · next hup =>
                rw [if_neg hup] at hmore
                split
                · rfl
                · next hshort =>
                    rw [if_neg hshort] at hmore
                    have hon := fun r hr => hmore r (List.mem_cons_of_mem _ hr)
                    rcases (hmore (place ++ [part]) List.mem_cons_self).cases with
                      ⟨n, n', hn, hn'⟩ | ⟨hdir, hsame⟩
                    · rw [hn] at hon
                      rw [hn, hn']
                      exact ih hon
                    · rw [hsame]
                      cases hentry : t.get? (place ++ [part]) with
                      | none => rfl
                      | some e =>
                          cases e with
                          | file c m => rfl
                          | directory m => exact absurd ⟨m, hentry⟩ hdir
                          | link target =>
                              rw [hentry] at hon
                              cases links with
                              | zero => rfl
                              | succ links =>
                                  dsimp only
                                  rw [ih hon]
          · rw [hsame]
            cases hentry : t.get? place with
            | none => rfl
            | some e =>
                cases e with
                | file c m => rfl
                | directory m => exact absurd ⟨m, hentry⟩ hdir
                | link target => rfl

theorem Way.mem_looked (h : Way t f q fuel links place ps) : q ∈ looked t fuel links place ps := by
  induction h with
  | here => simp [looked]
  | up hdir h ih =>
      obtain ⟨m, hm⟩ := hdir
      simp [looked, hm, ih]
  | down hlook hnext h ih =>
      obtain ⟨⟨m, hm⟩, hup, hlen⟩ := hlook
      obtain ⟨m', hm'⟩ := hnext
      simp [looked, hm, hm', hup, Nat.not_lt.mpr hlen, ih]
  | last hlook hnext hq =>
      obtain ⟨⟨m, hm⟩, hup, hlen⟩ := hlook
      simp [looked, hm, hup, Nat.not_lt.mpr hlen, hq]
  | stop hlook hlink hstop hq =>
      obtain ⟨⟨m, hm⟩, hup, hlen⟩ := hlook
      simp [looked, hm, hup, Nat.not_lt.mpr hlen, hq]
  | through hlook hlink hon h ih =>
      obtain ⟨⟨m, hm⟩, hup, hlen⟩ := hlook
      simp [looked, hm, hup, Nat.not_lt.mpr hlen, hlink, ih]

/-! ### One place for each path -/

theorem Way.mono (h : Way t f q fuel links place ps) (m n : Nat) : Way t f q (fuel + m) (links + n) place ps := by
  induction h with
  | @here fuel links =>
      rw [Nat.add_right_comm]
      exact .here
  | up hdir h ih =>
      rw [Nat.add_right_comm]
      exact .up hdir ih
  | down hlook hnext h ih =>
      rw [Nat.add_right_comm]
      exact .down hlook hnext ih
  | last hlook hnext hq =>
      rw [Nat.add_right_comm]
      exact .last hlook hnext hq
  | stop hlook hlink hstop hq =>
      rw [Nat.add_right_comm]
      exact .stop hlook hlink hstop hq
  | through hlook hlink hon h ih =>
      rw [Nat.add_right_comm, Nat.add_right_comm _ 1 n]
      exact .through hlook hlink hon ih

/-- A path leads to one place only, whatever has been spent on the way before. -/
theorem Way.unique {q' : Place} {fuel' links' : Nat} (h : Way t f q fuel links place ps)
    (h' : Way t f q' fuel' links' place ps) : q = q' := by
  have hwalk := (h.mono fuel' links').walk_eq
  have hwalk' := (h'.mono fuel links).walk_eq
  rw [Nat.add_comm fuel', Nat.add_comm links', hwalk] at hwalk'
  exact Except.ok.inj hwalk'

theorem Way.of_stop {r : Place} {target : String} {fuel' links' : Nat} (h : Way t false q fuel links place ps)
    (hlink : t.get? q = some (.link target)) (h' : Way t true r fuel' links' place ps) :
    r = q ∨ ∃ fuel links above name, q = above ++ [name] ∧ Way t true r fuel links above [name] := by
  induction h generalizing fuel' links' with
  | here =>
      cases h'
      exact .inl rfl
  | up hdir h ih =>
      cases h' with
      | up hdir' h' => exact ih h'
      | down hlook | last hlook | stop hlook | through hlook => exact absurd rfl hlook.notUp
  | down hlook hnext h ih =>
      obtain ⟨m, hm⟩ := hnext
      cases h' with
      | up => exact absurd rfl hlook.notUp
      | down hlook' hnext' h' => exact ih h'
      | last hlook' hnext' =>
          obtain ⟨c, m, hfile⟩ := hnext' _ hm
          cases hfile
      | stop hlook' hlink' => cases hm.symm.trans hlink'
      | through hlook' hlink' => cases hm.symm.trans hlink'
  | last hlook hnext hq =>
      subst hq
      obtain ⟨c, m, hfile⟩ := hnext _ hlink
      cases hfile
  | stop hlook hlink' hstop hq => exact .inr ⟨_, _, _, _, hq, h'⟩
  | through hlook hlink' hon h ih =>
      cases h' with
      | up => exact absurd rfl hlook.notUp
      | down hlook' hnext' =>
          obtain ⟨m, hm⟩ := hnext'
          cases hm.symm.trans hlink'
      | last hlook' hnext' =>
          obtain ⟨c, m, hfile⟩ := hnext' _ hlink'
          cases hfile
      | stop hlook' hlink'' hstop => cases hstop
      | through hlook' hlink'' hon' h' =>
          cases hlink'.symm.trans hlink''
          exact ih h'

namespace Disk

variable {d d' : Disk} {path : String} {e : Entry}

/-- The places that are looked at on the way of a path, links followed. -/
def looked (d : Disk) (path : String) : List Place :=
  Files.looked d.tree (41 * (maxPath + 1)) maxLinks (if Path.isAbsolute path then [] else d.working) (Path.parts path)

/-- Nothing has changed but that files and links have been taken away. -/
structure Thinned (d d' : Disk) : Prop where
  working : d'.working = d.working
  tree : d.tree.Thinned d'.tree

theorem Thinned.refl (d : Disk) : Thinned d d := ⟨rfl, .refl d.tree⟩

theorem Thinned.trans {d'' : Disk} (h : Thinned d d') (h' : Thinned d' d'') : Thinned d d'' :=
  ⟨h'.working.trans h.working, h.tree.trans h'.tree⟩

/-- Where a path leads to an entry that is left, it has led to it before. -/
theorem Thinned.entry?_eq (h : Thinned d d') (hentry : d'.entry? f path = .ok (q, e)) :
    d.entry? f path = .ok (q, e) := by
  obtain ⟨hresolve, he⟩ := entry?_eq_ok.mp hentry
  obtain ⟨husable, hway⟩ := resolve_eq_ok_iff.mp hresolve
  rw [h.working] at hway
  exact entry?_eq_ok.mpr ⟨resolve_eq_ok_iff.mpr ⟨husable, hway.of_thinned h.tree he⟩, h.tree.get? he⟩

/-- Files and links may be gone from the directory at `above`, and with them its time may have changed; everything
else is as before. -/
structure Pruned (above : Place) (d d' : Disk) : Prop extends Thinned d d' where
  touched : ∀ r, r ≠ above → d'.touched.lookup r = d.touched.lookup r

variable {above : Place}

theorem Pruned.refl (d : Disk) : Pruned above d d := ⟨.refl d, fun _ _ => rfl⟩

theorem Pruned.trans {d'' : Disk} (h : Pruned above d d') (h' : Pruned above d' d'') : Pruned above d d'' :=
  ⟨h.toThinned.trans h'.toThinned, fun r hr => (h'.touched r hr).trans (h.touched r hr)⟩

theorem thinned_remove {now : Int} (h : d.remove now path = .ok d') : d.Thinned d' := by
  obtain ⟨q, e, -, hno, rfl⟩ := remove_eq_ok h
  exact ⟨rfl, .erase hno⟩

theorem pruned_erase {name : String} {now : Int} (hno : ¬ d.tree.HasDirectory (above ++ [name])) :
    d.Pruned above (d.changed (d.tree.erase (above ++ [name])) now [above ++ [name]]) := by
  refine ⟨⟨rfl, .erase hno⟩, fun r hr => ?_⟩
  rw [changed, List.map_singleton, List.dropLast_concat, List.singleton_append, List.lookup_cons,
    beq_false_of_ne hr]

/-- Where nothing has changed that is looked at, a path leads to the same entry or fails alike. -/
theorem entry?_of_looked (hworking : d'.working = d.working)
    (h : ∀ r ∈ d.looked path, d'.tree.get? r = d.tree.get? r) (f : Bool) : d'.entry? f path = d.entry? f path := by
  rcases resolve_cases path with rfl | ⟨e, -, hnowhere⟩ | husable
  · rfl
  · unfold entry?
    rw [hnowhere, hnowhere]
  · have hwalk := walk_of_looked (f := f) fun r hr => .inl (h r hr)
    unfold entry?
    rw [resolve_eq_walk husable, resolve_eq_walk husable, hworking, hwalk]
    cases hplace : walk d.tree f (41 * (maxPath + 1)) maxLinks (if Path.isAbsolute path then [] else d.working)
        (Path.parts path) with
    | error e => rfl
    | ok r =>
        dsimp only
        rw [h r (way_of_walk hplace).mem_looked]

end Disk

end SignOn.Files
