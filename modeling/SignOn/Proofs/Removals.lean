import SignOn.Proofs.Directories

/-! # Removing files

A path that a file or a link has been removed from leads nowhere, and neither does one that has led nowhere before
(`Disk.read_of_remove`), whatever links there are on its way: up to the entry that is removed the path leads on as it
did (`Way.walk_erase`). -/

namespace SignOn.Files

open SignOn.Files.Tree

variable {t : Tree} {f : Bool} {fuel links : Nat} {place p : Place} {parts : List String}

theorem walk_follow (t : Tree) (fuel links : Nat) (place : Place) (parts : List String) :
    walk t true fuel links place parts = walk t false fuel links place parts ∨
      ∃ p target, walk t false fuel links place parts = .ok p ∧ t.get? p = some (.link target) := by
  induction fuel generalizing links place parts with
  | zero => exact .inl rfl
  | succ fuel ih =>
      cases parts with
      | nil => exact .inl rfl
      | cons part rest =>
          rw [walk, walk]
          cases t.get? place with
          | none => exact .inl rfl
          | some e =>
              cases e with
              | file c m => exact .inl rfl
              | link target => exact .inl rfl
              | directory m =>
                  dsimp only
                  split
                  · exact ih links place.dropLast rest
                  · split
                    · exact .inl rfl
                    · cases hnext : t.get? (place ++ [part]) with
                      | none => exact .inl rfl
                      | some e =>
                          cases e with
                          | file c m => exact .inl rfl
                          | directory m => exact ih links (place ++ [part]) rest
                          | link target =>
                              by_cases hrest : rest = []
                              · exact .inr ⟨place ++ [part], target, by simp [hrest], hnext⟩
                              · simp only [hrest, false_and, if_false]
                                cases links with
                                | zero => exact .inl rfl
                                | succ links => exact ih links _ _

/-- Once the file or the link that a path leads to has been taken away, the path leads to no entry. -/
theorem Way.walk_erase (h : Way t false p fuel links place parts) (hp : p ≠ []) (hdir : ¬ t.HasDirectory p) :
    walk (t.erase p) true fuel links place parts = .ok p ∨
      walk (t.erase p) true fuel links place parts = .error .notFound := by
  have hkeeps : ∀ {r : Place}, t.HasDirectory r → (t.erase p).HasDirectory r := (hasDirectory_erase hdir _).mpr
  have hlooks : ∀ {r : Place} {part : String}, Looks t r part → Looks (t.erase p) r part := fun hlook =>
    ⟨hkeeps hlook.directory, hlook.notUp, hlook.short⟩
  have hgone : ∀ {fuel links : Nat} {r : Place} {part : String} (rest : List String), Looks t r part →
      p = r ++ [part] → walk (t.erase p) true (fuel + 1) links r (part :: rest) = .ok p ∨
        walk (t.erase p) true (fuel + 1) links r (part :: rest) = .error .notFound := by
    rintro fuel links r part rest hlook hself
    rw [(hlooks hlook).walk_missing _ _ _ _ (hself ▸ get?_erase_self hp), ← hself]
    split
    · exact .inl rfl
    · exact .inr rfl
  induction h with
  | here => exact .inl rfl
  | up hplace h ih =>
      rw [walk_up (hkeeps hplace)]
      exact ih
  | down hlook hnext h ih =>
      rw [(hlooks hlook).walk_down _ _ _ _ (hkeeps hnext)]
      exact ih
  | last hlook hnext hq => exact hgone [] hlook hq
  | stop hlook hlink hstop hq => exact hgone [] hlook hq
  | @through fuel links place part target rest hlook hlink hon h ih =>
      by_cases hself : p = place ++ [part]
      · exact hgone rest hlook hself
      · rw [(hlooks hlook).walk_through _ _ _ _ (by rw [get?_erase_of_ne (Ne.symm hself), hlink]) fun _ => rfl]
        exact ih

namespace Disk

variable {d d' : Disk} {path : String}

theorem read_of_entry? (h : d.entry? true path = .error .notFound) : d.read path = .error .notFound := by
  rw [Disk.read, h]

theorem entry?_follow (h : d.entry? false path = .error .notFound) : d.entry? true path = .error .notFound := by
  unfold entry? at h ⊢
  rcases resolve_cases path with rfl | ⟨e, -, hnowhere⟩ | husable
  · rfl
  · rw [hnowhere] at h ⊢
    exact h
  · rw [resolve_eq_walk husable] at h ⊢
    rcases walk_follow d.tree (41 * (maxPath + 1)) maxLinks
      (if Path.isAbsolute path then [] else d.working) (Path.parts path) with heq | ⟨p, target, hp, he⟩
    · rw [heq]
      exact h
    · simp only [hp, he] at h
      cases h

theorem remove_eq_ok {now : Int} (h : d.remove now path = .ok d') :
    ∃ p e, d.entry? false path = .ok (p, e) ∧ ¬ d.tree.HasDirectory p ∧
      d' = d.changed (d.tree.erase p) now [p] := by
  unfold Disk.remove at h
  split at h
  · cases h
  · cases h
  · next p e hno hentry =>
      refine ⟨p, e, hentry, ?_, (Except.ok.inj h).symm⟩
      rintro ⟨m, hm⟩
      exact hno m (Option.some.inj ((entry?_eq_ok.mp hentry).2.symm.trans hm))

/-- Behind a removal, and where there has been nothing to remove, nothing is found at the path. -/
theorem read_of_remove {now : Int}
    (h : d.remove now path = .ok d' ∨ d.remove now path = .error .notFound ∧ d' = d) :
    d'.read path = .error .notFound := by
  apply read_of_entry?
  rcases h with h | ⟨h, rfl⟩
  · obtain ⟨p, e, hentry, hdir, rfl⟩ := remove_eq_ok h
    obtain ⟨hresolve, he⟩ := entry?_eq_ok.mp hentry
    have hp : p ≠ [] := fun hroot => hdir ⟨0, hroot ▸ get?_nil d.tree⟩
    have hgone : (d.tree.erase p).get? p = none := get?_erase_self hp
    rcases resolve_cases path with rfl | ⟨e, -, hnowhere⟩ | husable
    · cases hresolve
    · rw [hnowhere] at hresolve
      cases hresolve
    · unfold entry?
      rw [resolve_eq_walk husable, changed_tree, changed_working]
      rcases (way_of_walk (resolve_eq_ok hresolve)).walk_erase hp hdir with hleads | hleads
      · rw [hleads]
        dsimp only
        rw [hgone]
      · rw [hleads]
  · unfold Disk.remove at h
    split at h
    · next e hentry =>
        obtain rfl : e = .notFound := Except.error.inj h
        exact entry?_follow hentry
    · cases h
    · cases h

end Disk

end SignOn.Files
