import SignOn.Proofs.AllOrNothing
import SignOn.Proofs.Confinement
import SignOn.Proofs.Descents

/-! # Whether a session can be written

* `Disk.Free` is a path that a file can be put at.  Without links that depends on the directories alone
  (`Free.congr`).
* A session can be written if the directories above it can be made and both its paths are free then
  (`Store.Writable`, `run_write_ok_iff`); the time is of no account (`writable_iff`).
* All names in a directory have the same directories above them.  So where these have been made for one role, another
  one can be written if and only if it could be before (`writable_of_made`). -/

namespace SignOn

open Files (Place Content Entry)

namespace Files.Disk

variable {d d' e : Disk} {path source target : String} {c : Content} {now : Int} {q : Place}

/-- A file can be put at a path: it leads somewhere, and no directory stands there. -/
def Free (d : Disk) (path : String) : Prop :=
  ∃ q, d.resolve true path = .ok q ∧ ¬ d.tree.HasDirectory q

/-- Two disks with the same directories, and the same one to start from. -/
structure SameDirectories (d d' : Disk) : Prop where
  working : d'.working = d.working
  tree : ∀ p, d.tree.HasDirectory p ↔ d'.tree.HasDirectory p

namespace SameDirectories

theorem symm (h : SameDirectories d d') : SameDirectories d' d := ⟨h.working.symm, fun p => (h.tree p).symm⟩

theorem trans (h : SameDirectories d d') (h' : SameDirectories d' e) : SameDirectories d e :=
  ⟨h'.working.trans h.working, fun p => (h.tree p).trans (h'.tree p)⟩

theorem of_write (h : d.write now path c = .ok d') : SameDirectories d d' := by
  obtain ⟨q, -, hq, rfl⟩ := write_eq_ok h
  exact ⟨rfl, fun p => (Tree.hasDirectory_set hq (fun _ => Entry.noConfusion) p).symm⟩

theorem of_rename (hd : d.tree.LinkFree) {m : Int} (hfile : d.HasFile source c m)
    (h : d.rename now source target = .ok d') : SameDirectories d d' := by
  obtain ⟨p, q, -, -, -, rfl, hdirs⟩ := rename_eq_ok_of_hasFile hd hfile h
  exact ⟨rfl, fun p => (hdirs p).symm⟩

theorem of_erase (hq : ¬ d.tree.HasDirectory q) (now : Int) (places : List Place) :
    SameDirectories d (d.changed (d.tree.erase q) now places) :=
  ⟨rfl, fun p => (Tree.hasDirectory_erase hq p).symm⟩

end SameDirectories

theorem Free.congr (hd : d.tree.LinkFree) (hd' : d'.tree.LinkFree) (h : SameDirectories d d') (hfree : d.Free path) :
    d'.Free path := by
  obtain ⟨q, hq, hdir⟩ := hfree
  exact ⟨q, resolve_congr hd hd' h.working (fun p => (h.tree p).mp) hq (h.tree q).mpr, mt (h.tree q).mpr hdir⟩

theorem exists_write_iff : (∃ d', d.write now path c = .ok d') ↔ d.Free path := by
  constructor
  · rintro ⟨d', h⟩
    obtain ⟨q, hq, hdir, -⟩ := write_eq_ok h
    exact ⟨q, hq, hdir⟩
  · rintro ⟨q, hq, hdir⟩
    unfold Disk.write
    rw [hq]
    dsimp only
    split
    · next m hm => exact absurd ⟨m, hm⟩ hdir
    · exact ⟨_, rfl⟩

theorem exists_rename_iff (hd : d.tree.LinkFree) {m : Int} (hfile : d.HasFile source c m) :
    (∃ d', d.rename now source target = .ok d') ↔ d.Free target := by
  constructor
  · rintro ⟨d', h⟩
    obtain ⟨p, q, -, hq, hdir, -, -⟩ := rename_eq_ok_of_hasFile hd hfile h
    exact ⟨q, resolve_congr hd hd rfl (fun _ => id) hq id, hdir⟩
  · rintro ⟨q, hq, hdir⟩
    obtain ⟨p, hp, hc⟩ := hfile
    have hsource : d.entry? false source = .ok (p, .file c m) :=
      entry?_eq_ok.mpr ⟨resolve_congr hd hd rfl (fun _ => id) hp id, hc⟩
    have htarget : d.resolve false target = .ok q := resolve_congr hd hd rfl (fun _ => id) hq id
    unfold Disk.rename
    rw [hsource, htarget]
    dsimp only
    split
    · next m hm => exact absurd ⟨m, hm⟩ hdir
    · exact ⟨_, rfl⟩

/-- What can be made does not depend on the time, and neither do the directories that are there then. -/
theorem makeDirectories_sameKinds (now now' : Int) (h : d.makeDirectories now path = (e, none)) :
    ∃ e', d.makeDirectories now' path = (e', none) ∧ SameDirectories e e' := by
  obtain ⟨hresult, hkinds⟩ := (SameKinds.refl d).makeDirectoriesFrom now now' path.length path
  unfold makeDirectories at h ⊢
  rw [h] at hresult hkinds
  refine ⟨(makeDirectoriesFrom now' path.length d path).1, Prod.ext rfl hresult, hkinds.working, ?_⟩
  intro p
  exact (hkinds.hasDirectory_iff p).symm

end Files.Disk

namespace Store

open Files (Disk)

variable {σ : Type} {b : PageBehaviour σ} {s : Store} {role other path : String} {session : StoredSession}
variable {w : World σ} {d d' : Disk}

/-- The directories above the session of a role can be made, and both its paths are free then. -/
def Writable (s : Store) (role : String) (d : Disk) : Prop :=
  ∃ now e, d.makeDirectories now ((Path.parent? (s.path role)).getD "") = (e, none) ∧
    e.Free (temporary (s.path role)) ∧ e.Free (s.path role)

/-- Whether a session can be written is the same at every time. -/
theorem writable_iff (hd : d.tree.LinkFree) (now : Int) : s.Writable role d ↔
    ∃ e, d.makeDirectories now ((Path.parent? (s.path role)).getD "") = (e, none) ∧
      e.Free (temporary (s.path role)) ∧ e.Free (s.path role) := by
  constructor
  · rintro ⟨now', e, hmade, htemp, hpath⟩
    obtain ⟨e', hmade', hsame⟩ := Disk.makeDirectories_sameKinds now' now hmade
    have he := (Disk.grown_of_makeDirectories hmade).tree.linkFree hd
    have he' := (Disk.grown_of_makeDirectories hmade').tree.linkFree hd
    exact ⟨e', hmade', htemp.congr he he' hsame, hpath.congr he he' hsame⟩
  · rintro ⟨e, hmade, htemp, hpath⟩
    exact ⟨now, e, hmade, htemp, hpath⟩

/-- A session is written if it can be. -/
theorem run_write_ok_iff (hw : w.disk.tree.LinkFree) :
    ((s.write role session).run b w).1 = .ok path ↔ path = s.path role ∧ s.Writable role w.disk := by
  rw [writable_iff hw w.wall]
  unfold write
  simp only [Plan.bind_eq, Plan.run_file]
  generalize hmade : w.disk.makeDirectories w.wall ((Path.parent? (s.path role)).getD "") = made
  obtain ⟨d, error⟩ := made
  have hd := (Disk.grown_of_makeDirectories hmade).tree.linkFree hw
  -- `Writable` speaks of the tree with the directories made.  Writing the file beside changes no directory, so the
  -- condition on the path can be carried over to the tree that the move is made in.
  cases error with
  | some e =>
      rw [World.fileStep_makeDirectories_error hmade]
      simp
  | none =>
      rw [World.fileStep_makeDirectories_ok hmade]
      simp only [Plan.run_file]
      cases hwrite : d.write w.wall (temporary (s.path role)) (.text session.written) with
      | error e =>
          have hoccupied : ¬ d.Free (temporary (s.path role)) := by
            intro hfree
            obtain ⟨d', h⟩ := Disk.exists_write_iff.mpr hfree
            rw [hwrite] at h
            cases h
          rw [World.fileStep_write_error (w := w.withDisk d) hwrite]
          simp [hoccupied]
      | ok d' =>
          have hfree : d.Free (temporary (s.path role)) := Disk.exists_write_iff.mp ⟨d', hwrite⟩
          have hd' := Disk.linkFree_write hd hwrite
          have hsame := Disk.SameDirectories.of_write hwrite
          have hmove :
              (∃ d'', d'.rename w.wall (temporary (s.path role)) (s.path role) = .ok d'') ↔ d'.Free (s.path role) :=
            Disk.exists_rename_iff hd' (Disk.hasFile_of_write hd hwrite)
          rw [World.fileStep_write_ok (w := w.withDisk d) hwrite]
          simp only [Plan.run_file]
          cases hrename : d'.rename w.wall (temporary (s.path role)) (s.path role) with
          | error e =>
              have hoccupied : ¬ d.Free (s.path role) := by
                intro hpath
                obtain ⟨d'', h⟩ := hmove.mpr (hpath.congr hd hd' hsame)
                rw [hrename] at h
                cases h
              rw [World.fileStep_rename_error (w := (w.withDisk d).withDisk d') hrename]
              simp [hoccupied]
          | ok d'' =>
              have hpath : d.Free (s.path role) := (hmove.mp ⟨d'', hrename⟩).congr hd' hd hsame.symm
              rw [World.fileStep_rename_ok (w := (w.withDisk d).withDisk d') hrename]
              show Except.ok (s.path role) = .ok path ↔ _
              constructor
              · intro h
                exact ⟨(Except.ok.inj h).symm, d, rfl, hfree, hpath⟩
              · intro ⟨h, _⟩
                rw [h]

theorem sameDirectories_of_write {w' : World σ} (hw : w.disk.tree.LinkFree)
    (h : (s.write role session).run b w = (.ok path, w')) :
    ∃ now e, w.disk.makeDirectories now ((Path.parent? (s.path role)).getD "") = (e, none) ∧
      e.Free (s.path role) ∧ Disk.SameDirectories e w'.disk := by
  have hok : ((s.write role session).run b w).1 = .ok path := congrArg Prod.fst h
  obtain ⟨e, hmade, -, hfree⟩ := (writable_iff hw w.wall).mp ((run_write_ok_iff hw).mp hok).2
  obtain ⟨-, d, error, hmade', ⟨-, e', he'⟩ | ⟨d', hwrite, ⟨-, e', he'⟩ | ⟨hmove, -⟩⟩⟩ := run_write_steps h
  · cases he'
  · cases he'
  · rw [hmade] at hmade'
    obtain ⟨rfl, -⟩ := Prod.mk.inj hmade'
    have he := (Disk.grown_of_makeDirectories hmade).tree.linkFree hw
    exact ⟨w.wall, e, hmade, hfree, (Disk.SameDirectories.of_write hwrite).trans
      (.of_rename (Disk.linkFree_write he hwrite) (Disk.hasFile_of_write he hwrite) hmove)⟩

section

variable (hother : Path.Simple (s.fileName other)) (hd : d.tree.LinkFree) (hd' : d'.tree.LinkFree)

include hother hd hd'

/-- Where the directory is there, only directories count. -/
theorem Writable.congr {q : Place} (hfolder : d.folder s.directory = .ok q) (h : Disk.SameDirectories d d')
    (hwritable : s.Writable other d) : s.Writable other d' := by
  obtain ⟨now, e, hmade, htemp, hpath⟩ := hwritable
  rcases Disk.makeDirectories_parent hother s.directory with ⟨error, hnowhere⟩ | hthere
  · rw [path_eq_join, hnowhere] at hmade
    cases hmade
  · have hfolder' := Disk.folder_mono h.working (fun p => (h.tree p).mp) hfolder
    rw [path_eq_join, hthere d now q hfolder] at hmade
    obtain ⟨rfl, -⟩ := Prod.mk.inj hmade
    exact ⟨now, d', hthere d' now q hfolder', htemp.congr hd hd' h, hpath.congr hd hd' h⟩

theorem writable_congr {q : Place} (hfolder : d.folder s.directory = .ok q) (h : Disk.SameDirectories d d') :
    s.Writable other d ↔ s.Writable other d' := by
  have hfolder' := Disk.folder_mono h.working (fun p => (h.tree p).mp) hfolder
  exact ⟨.congr hother hd hd' hfolder h, .congr hother hd' hd hfolder' h.symm⟩

end

/-! ### Directories that have been made -/

section

variable {now : Int} {e : Disk} (hname : Path.Simple (s.fileName role)) (hd : d.tree.LinkFree) (hd' : d'.tree.LinkFree)
variable (hmade : d.makeDirectories now ((Path.parent? (s.path role)).getD "") = (e, none))
variable (hfree : e.Free (s.path role)) (hsame : Disk.SameDirectories e d')

include hname hd hmade hfree

theorem folder_of_made : ∃ q, e.folder s.directory = .ok q := by
  obtain ⟨q, hq, -⟩ := hfree
  rw [path_eq_join] at hq
  exact Disk.folder_of_resolve ((Disk.grown_of_makeDirectories hmade).tree.linkFree hd) hname hq

include hd' hsame

/-- Where the directories have been made for one role, another one can be written if it could be before. -/
theorem writable_of_made (hother : Path.Simple (s.fileName other)) : s.Writable other d' ↔ s.Writable other d := by
  have he := (Disk.grown_of_makeDirectories hmade).tree.linkFree hd
  obtain ⟨above, hfolder⟩ := folder_of_made hname hd hmade hfree
  have hparent : Path.parent? (s.path role) = Path.parent? (s.path other) := by
    rw [path_eq_join, path_eq_join]
    exact Path.parent?_join hname hother s.directory
  rw [hparent] at hmade
  rw [← writable_congr hother he hd' hfolder hsame, writable_iff hd now, writable_iff he now, hmade]
  rcases Disk.makeDirectories_parent hother s.directory with ⟨error, hnowhere⟩ | hthere
  · rw [path_eq_join, hnowhere] at hmade
    cases hmade
  · have hmade' : e.makeDirectories now ((Path.parent? (s.path other)).getD "") = (e, none) := by
      rw [path_eq_join]
      exact hthere e now above hfolder
    rw [hmade']

end

end Store

end SignOn
