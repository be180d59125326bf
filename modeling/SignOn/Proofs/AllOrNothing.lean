import SignOn.Proofs.Parents
import SignOn.Proofs.RolesApart

/-! # Writes as a whole

* Without links, a file that is written or moved changes the places of its paths alone
  (`Disk.get?_write_of_ne_goal`, `Disk.get?_rename_of_ne_goal`).
* `Store.Whole` is what a write leaves behind.  If it fails, all that it may have changed is the file beside, and
  directories above that are new.  If it succeeds, the session stands at its path, the file beside is gone, and
  all else is as it was.
* `Store.all_or_nothing`: every write and every save is of this kind, wherever it stops. -/

namespace SignOn

namespace Files.Disk

variable {d d' : Disk} {now : Int} {path source target : String} {c : Content} {p : Place}

theorem get?_write_of_ne_goal (hd : d.tree.LinkFree) (h : d.write now path c = .ok d')
    (hp : p ≠ goal d.working path) : d'.tree.get? p = d.tree.get? p := by
  obtain ⟨q, hq, -, rfl⟩ := write_eq_ok h
  rw [← goal_of_resolve hd hq] at hp
  exact Tree.get?_set_of_ne _ hp

theorem get?_rename_of_ne_goal (hd : d.tree.LinkFree) (h : d.rename now source target = .ok d')
    (hsource : p ≠ goal d.working source) (htarget : p ≠ goal d.working target) :
    d'.tree.get? p = d.tree.get? p := by
  obtain ⟨q, e, r, hq, -, hr, -, rfl⟩ := rename_eq_ok h
  rw [← goal_of_resolve hd hq] at hsource
  rw [← goal_of_resolve hd hr] at htarget
  show Tree.get? ((d.tree.erase q).set r e) p = d.tree.get? p
  rw [Tree.get?_set_of_ne _ htarget, Tree.get?_erase_of_ne hsource]

theorem get?_rename_source (hd : d.tree.LinkFree) {m : Int} (hfile : d.HasFile source c m)
    (h : d.rename now source target = .ok d') (hne : goal d.working source ≠ goal d.working target) :
    d'.tree.get? (goal d.working source) = none := by
  obtain ⟨q, hq, hc⟩ := hfile
  obtain ⟨q', r, hq', hr, -, rfl, -⟩ := rename_eq_ok_of_hasFile hd ⟨q, hq, hc⟩ h
  have hroot : q ≠ [] := by
    rintro rfl
    cases hc
  rw [← goal_of_resolve hd hq] at hne ⊢
  obtain rfl : q = q' := (goal_of_resolve hd hq).trans (goal_of_resolve hd hq').symm
  rw [← goal_of_resolve hd hr] at hne
  show Tree.get? ((d.tree.erase q).set r (.file c m)) q = none
  rw [Tree.get?_set_of_ne _ hne, Tree.get?_erase_self hroot]

/-! ### Directories that are new -/

/-- A place is as it was, or a directory has been made there, above a path. -/
def SameOrMade (path : String) (d d' : Disk) (p : Place) : Prop :=
  d'.tree.get? p = d.tree.get? p ∨ d.tree.get? p = none ∧ d'.tree.HasDirectory p ∧ d.Above path p

theorem sameOrMade_of_makeDirectories (hd : d.tree.LinkFree) (now : Int) (path : String) (p : Place) :
    SameOrMade path d (d.makeDirectories now ((Path.parent? path).getD "")).1 p := by
  rcases (grown_makeDirectories d now ((Path.parent? path).getD "")).tree p with hsame | ⟨hnone, hmade⟩
  · exact .inl hsame
  · have hchanged : (d.makeDirectories now ((Path.parent? path).getD "")).1.tree.get? p ≠ d.tree.get? p := by
      intro hsame
      obtain ⟨m, hm⟩ := hmade
      rw [hsame, hnone] at hm
      cases hm
    exact .inr ⟨hnone, hmade, above_of_makeDirectories hd hchanged⟩

theorem SameOrMade.congr {e : Disk} (h : SameOrMade path d d' p) (hsame : e.tree.get? p = d'.tree.get? p) :
    SameOrMade path d e p := by
  unfold SameOrMade Tree.HasDirectory
  rwa [hsame]

end Files.Disk

namespace Store

open Files (Disk Place goal)

section

variable {σ : Type} {b : PageBehaviour σ} {s : Store} {role : String} {session : StoredSession}
variable {w w' : World σ} {r : Except StorageError String}

theorem goal_path_ne_temporary (s : Store) (role : String) (working : Place) :
    goal working (s.path role) ≠ goal working (temporary (s.path role)) := by
  obtain ⟨init, name, temp, hpath, htemp, hname, hup, hother, hup'⟩ := s.exists_names_path role
  intro h
  have hlast := Files.getLast?_goal hpath hup working
  rw [h, Files.getLast?_goal htemp hup' working] at hlast
  exact hother (Option.some.inj hlast ▸ hname)

/-- What the write of a role leaves behind: all or nothing of a session, which is one that was `given`.  A failure
leaves all places but the one of the file beside.  Behind a success the session stands at its path, under the present
time, the file beside is gone, and all other places are as they were. -/
structure Whole (s : Store) (role : String) (given : StoredSession → Prop) (w : World σ)
    (r : Except StorageError String) (w' : World σ) : Prop where
  failed : ∀ e, r = .error e → ∀ p, p ≠ goal w.disk.working (temporary (s.path role)) →
    Disk.SameOrMade (s.path role) w.disk w'.disk p
  stored : ∀ path, r = .ok path → path = s.path role ∧
    ∃ session, given session ∧ w'.disk.HasFile path (.text session.written) w'.wall
  moved : ∀ path, r = .ok path → w'.disk.tree.get? (goal w.disk.working (temporary (s.path role))) = none
  others : ∀ path, r = .ok path → ∀ p, p ≠ goal w.disk.working (s.path role) →
    p ≠ goal w.disk.working (temporary (s.path role)) → Disk.SameOrMade (s.path role) w.disk w'.disk p

theorem whole_of_error {given : StoredSession → Prop} (e : StorageError)
    (h : ∀ p, p ≠ goal w.disk.working (temporary (s.path role)) →
      Disk.SameOrMade (s.path role) w.disk w'.disk p) : s.Whole role given w (.error e) w' where
  failed _ _ := h
  stored _ hok := nomatch hok
  moved _ hok := nomatch hok
  others _ hok := nomatch hok

theorem whole_of_run_write (hw : w.disk.tree.LinkFree) (h : (s.write role session).run b w = (r, w')) :
    s.Whole role (· = session) w r w' := by
  obtain ⟨-, d, failure, hmade, hrest⟩ := run_write_steps h
  have hgrown := Disk.grown_of_makeDirectories hmade
  have hdirs := Disk.sameOrMade_of_makeDirectories hw w.wall (s.path role)
  rw [hmade] at hdirs
  have hd := hgrown.tree.linkFree hw
  rcases hrest with ⟨hw', e, he⟩ | ⟨d', hwrite, hrest⟩
  · subst he
    apply whole_of_error
    intro p _
    rw [hw']
    exact hdirs p
  · have hd' := Disk.linkFree_write hd hwrite
    have hworking : d'.working = d.working := by
      obtain ⟨q, -, -, rfl⟩ := Disk.write_eq_ok hwrite
      rfl
    have hbeside : ∀ p, p ≠ goal w.disk.working (temporary (s.path role)) →
        Disk.SameOrMade (s.path role) w.disk d' p := by
      intro p hp
      rw [← hgrown.working] at hp
      exact (hdirs p).congr (Disk.get?_write_of_ne_goal hd hwrite hp)
    rcases hrest with ⟨hw', e, he⟩ | ⟨hmove, hr⟩
    · subst he
      apply whole_of_error
      rw [hw']
      exact hbeside
    · subst hr
      rw [hgrown.working] at hworking
      constructor
      · intro e herror
        cases herror
      · intro path hpath
        obtain rfl := Except.ok.inj hpath
        exact ⟨rfl, session, rfl, (hasFile_of_run_write hw h).2⟩
      · intro path _
        rw [← hworking]
        exact Disk.get?_rename_source hd' (Disk.hasFile_of_write hd hwrite) hmove
          (s.goal_path_ne_temporary role d'.working).symm
      · intro path _ p hp htemp
        have hsame := hbeside p htemp
        rw [← hworking] at hp htemp
        exact hsame.congr (Disk.get?_rename_of_ne_goal hd' hmove htemp hp)

theorem whole_of_run_save (hw : w.disk.tree.LinkFree) (h : (s.save role).run b w = (r, w')) :
    s.Whole role (fun session => (b.respond .storageState w.page w.now).outcome = .ok session) w r w' := by
  obtain ⟨v, hv, ⟨rfl, e, he⟩ | ⟨session, hexport, hwrite⟩⟩ := run_save_cases h
  · subst he
    apply whole_of_error
    intro p _
    rw [hv]
    exact .inl rfl
  · rw [← hv] at hw
    obtain ⟨hfailed, hstored, hmoved, hothers⟩ := whole_of_run_write hw hwrite
    rw [hv] at hfailed hmoved hothers
    refine ⟨hfailed, fun path hpath => ?_, hmoved, hothers⟩
    obtain ⟨heq, given, rfl, hfile⟩ := hstored path hpath
    exact ⟨heq, given, hexport, hfile⟩

end

/-- **All or nothing.**  Without links, a write or a save that fails, at whatever step, leaves all places but the
one of the file beside as they were, save for directories made above the path of the role.  One that succeeds
puts the session at the path of the role, leaves no file beside it, and leaves all other places in this way.
The session is the one to be written, or the one that the page has given out. -/
theorem all_or_nothing {σ : Type} (b : PageBehaviour σ) (s : Store) (role : String) {w : World σ}
    (hw : w.disk.tree.LinkFree) :
    (∀ working, goal working (s.path role) ≠ goal working (temporary (s.path role))) ∧
      (∀ session r w', (s.write role session).run b w = (r, w') → s.Whole role (· = session) w r w') ∧
      ∀ r w', (s.save role).run b w = (r, w') →
        s.Whole role (fun session => (b.respond .storageState w.page w.now).outcome = .ok session) w r w' := by
  refine ⟨s.goal_path_ne_temporary role, ?_, ?_⟩
  · intro session r w'
    exact whole_of_run_write hw
  · intro r w'
    exact whole_of_run_save hw

/-- The session of one role stays when the one of another is saved, and when a role cannot be written because its
directory would be that very file. -/
theorem all_or_nothing_shelf :
    (shelf {}).disk.tree.LinkFree ∧
      (∃ e w', ((Store.mk {} none .standard).write "viewer.json/x" {}).run Manager.homePage (shelf {}) =
        (.error e, w') ∧
          w'.disk.tree.get? [".auth-states", "viewer.json"] = some (.file (.text (StoredSession.written {})) 0)) ∧
      ∃ w', ((Store.mk {} none .standard).save "admin").run Manager.homePage (shelf {}) =
        (.ok ".auth-states/admin.json", w') ∧
          w'.disk.tree.get? [".auth-states", "admin.json.tmp"] = none ∧
          w'.disk.tree.get? [".auth-states", "viewer.json"] = some (.file (.text (StoredSession.written {})) 0) := by
  have hfree := linkFree_shelf {}
  have hviewer : (shelf {}).disk.tree.get? [".auth-states", "viewer.json"] =
      some (.file (.text (StoredSession.written {})) 0) := rfl
  have hstays : ∀ {path : String} {d : Disk},
      Disk.SameOrMade path (shelf {}).disk d [".auth-states", "viewer.json"] →
      d.tree.get? [".auth-states", "viewer.json"] = some (.file (.text (StoredSession.written {})) 0) := by
    rintro path d (hsame | ⟨hnone, -⟩)
    · exact hsame.trans hviewer
    · rw [hviewer] at hnone
      cases hnone
  refine ⟨hfree, ?_, ?_⟩
  · have hfails : ∃ e, (((Store.mk {} none .standard).write "viewer.json/x" {}).run Manager.homePage
        (shelf {})).1 = .error e := ⟨_, rfl⟩
    obtain ⟨e, he⟩ := hfails
    obtain ⟨w', hrun⟩ := Plan.exists_run_eq Manager.homePage he
    obtain ⟨-, hwrite, -⟩ := all_or_nothing Manager.homePage (Store.mk {} none .standard) "viewer.json/x" hfree
    exact ⟨e, w', hrun, hstays ((hwrite {} _ _ hrun).failed e rfl _ (by decide +kernel))⟩
  · have hok : (((Store.mk {} none .standard).save "admin").run Manager.homePage (shelf {})).1 =
        .ok ".auth-states/admin.json" := rfl
    obtain ⟨w', hrun⟩ := Plan.exists_run_eq Manager.homePage hok
    obtain ⟨-, -, hsave⟩ := all_or_nothing Manager.homePage (Store.mk {} none .standard) "admin" hfree
    have hwhole := hsave _ _ hrun
    refine ⟨w', hrun, hwhole.moved _ rfl, ?_⟩
    exact hstays (hwhole.others _ rfl _ (by decide +kernel) (by decide +kernel))

end Store

end SignOn
