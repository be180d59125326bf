import SignOn.Proofs.Findings
import SignOn.Proofs.SigningOff
import SignOn.Proofs.Writability

/-! # Sessions of different roles do not meddle

Roles without slashes keep their sessions under names of one directory.  Without links:

* A change of one role leaves the entry that the path of another role leads to, and where it leads nowhere the reason
  why (`Store.entry?_after`), if the path is `Ready`: the directory is there, or the way to it is passable.
* Whether a change succeeds depends on the directories, on that entry and on what the page gives out
  (`outcome_congr`), and successful changes of other roles turn none of these.
* So two changes of different roles that succeed one after the other do so in the other order, too, and come to the
  same (`changes_independent`).  Paths that are not ready can be opened or closed by other roles, and a page that gives
  out one session after the other gives the first one to the role that asks first (`changes_interfere`). -/

namespace SignOn.Store

open Files (Disk Place goal)

/-! ### Changes and what they give -/

/-- What a change gives: the path of the session, or how many there were. -/
def Change.Value : Change → Type
  | .clear => Nat
  | _ => String

section

variable {σ : Type} (b : PageBehaviour σ) (s : Store)

def outcome (role : String) (w : World σ) : (c : Change) → Except StorageError c.Value
  | .write session => ((s.write role session).run b w).1
  | .save => ((s.save role).run b w).1
  | .clear => ((s.clear (some role)).run b w).1

/-- The session that a change is about to store, if it is to store one; a save takes the one that the page gives
out. -/
def given (w : World σ) : Change → Except PageError (Option StoredSession)
  | .write session => .ok (some session)
  | .save => (b.respond .storageState w.page w.now).outcome.map some
  | .clear => .ok none

/-- What a change leaves at the path of its role. -/
def left : Option StoredSession → Except FileError Files.Content
  | some session => .ok (.text session.written)
  | none => .error .notFound

end

/-- The path of a role is ready: its directory is there, or the way to it is passable. -/
def Ready (s : Store) (role : String) (d : Disk) : Prop :=
  (∃ q, d.folder s.directory = .ok q) ∨ d.Passable s.directory (s.fileName role)

/-- Two roles with names of their own in the directory. -/
structure Apart (s : Store) (role other : String) : Prop where
  first : Path.Simple (s.fileName role)
  second : Path.Simple (s.fileName other)
  names : s.fileName role ≠ s.fileName other

theorem Apart.symm {s : Store} {role other : String} (h : s.Apart role other) : s.Apart other role :=
  ⟨h.second, h.first, h.names.symm⟩

section

variable {σ : Type} {b : PageBehaviour σ} {s : Store} {role other : String} {w : World σ} {c c' : Change} {p : Place}

/-! ### What stays -/

theorem clear_cases (s : Store) (role : String) (w : World σ) :
    (s.after b role w .clear).disk = w.disk ∨
      ∃ q, w.disk.resolve false (s.path role) = .ok q ∧ ¬ w.disk.tree.HasDirectory q ∧
        (s.after b role w .clear).disk = w.disk.changed (w.disk.tree.erase q) w.wall [q] := by
  rw [after, disk_run_clear]
  cases hremove : w.disk.remove w.wall (s.path role) with
  | error e =>
      simp only [World.fileStep, hremove]
      exact .inl trivial
  | ok d =>
      simp only [World.fileStep, hremove]
      obtain ⟨q, e, hentry, hdir, hd⟩ := Disk.remove_eq_ok hremove
      exact .inr ⟨q, (Disk.entry?_eq_ok.mp hentry).1, hdir, hd⟩

/-- A change of a role leaves all places but the two of the role, save for directories that are made above. -/
theorem sameOrMade_after (hw : w.disk.tree.LinkFree) (c : Change) (hp : p ≠ goal w.disk.working (s.path role))
    (htemp : p ≠ goal w.disk.working (temporary (s.path role))) :
    Disk.SameOrMade (s.path role) w.disk (s.after b role w c).disk p := by
  have hwhole : ∀ {given : StoredSession → Prop} {r : Except StorageError String} {w' : World σ},
      s.Whole role given w r w' → Disk.SameOrMade (s.path role) w.disk w'.disk p := by
    intro given r w' h
    cases hr : r with
    | error e => exact h.failed e hr p htemp
    | ok path => exact h.others path hr p hp htemp
  cases c with
  | write session => exact hwhole (whole_of_run_write hw Prod.mk.eta.symm)
  | save => exact hwhole (whole_of_run_save hw Prod.mk.eta.symm)
  | clear =>
      left
      rcases clear_cases s role w with hsame | ⟨q, hq, -, hgone⟩
      · rw [hsame]
      · rw [hgone]
        exact Files.Tree.get?_erase_of_ne (Disk.goal_of_resolve hw hq ▸ hp)

section

variable {d d' : Disk} (hname : Path.Simple (s.fileName role))

include hname

theorem goal_path (working : Place) :
    goal working (s.path role) = goal working s.directory ++ [s.fileName role] ∧
      goal working (temporary (s.path role)) = goal working s.directory ++ [temporary (s.fileName role)] := by
  have htemp := simple_temporary hname length_fileNameFor
  constructor
  · rw [path_eq_join, hname.plain.goal_join, hname.rawParts_eq]
  · rw [temporary_path hname, htemp.plain.goal_join, htemp.rawParts_eq]

theorem above_path_iff : d.Above (s.path role) p ↔
    ∃ init, init <+: Path.parts s.directory ∧
      p = init.foldl Files.enter (if Path.isAbsolute s.directory then [] else d.working) := by
  rw [Disk.Above, path_eq_join, hname.parts_join, List.dropLast_concat,
    Path.isAbsolute_join s.directory hname.plain.not_isAbsolute]

end

theorem fileName_ne_temporary (hname : Path.Simple (s.fileName role)) (hother : Path.Simple (s.fileName other)) :
    s.fileName other ≠ temporary (s.fileName role) := by
  obtain ⟨init, name, temp, -, htemp, -, -, hses, -⟩ := s.exists_names_path role
  obtain ⟨init', name', temp', hpath, -, hname', -, -, -⟩ := s.exists_names_path other
  rw [temporary_path hname, (simple_temporary hname length_fileNameFor).parts_join] at htemp
  rw [path_eq_join, hother.parts_join] at hpath
  have hlast := congrArg List.getLast? htemp
  have hlast' := congrArg List.getLast? hpath
  rw [List.getLast?_concat, List.getLast?_concat] at hlast hlast'
  intro heq
  rw [heq, Option.some.inj hlast] at hlast'
  rw [Option.some.inj hlast'] at hses
  exact hses hname'

section

variable (h : s.Apart role other) (hw : w.disk.tree.LinkFree)

include h hw

theorem directories_after (c : Change) : (s.after b role w c).disk.working = w.disk.working ∧
    ∀ q, w.disk.tree.HasDirectory q → (s.after b role w c).disk.tree.HasDirectory q := by
  obtain ⟨init, name, temp, hpath, -, hses, hup, -⟩ := s.exists_names_path other
  have hgoal : goal w.disk.working (s.path other) ≠ goal w.disk.working (s.path role) := by
    rw [(goal_path h.second _).1, (goal_path h.first _).1]
    intro heq
    exact h.names (List.singleton_inj.mp (List.append_cancel_left heq)).symm
  have hkeeps := keepsAt_after (b := b) (Files.getLast?_goal hpath hup w.disk.working) hses hw hgoal c
  exact ⟨hkeeps.working, hkeeps.directories⟩

/-- A change of one role leaves what the path of another one leads to. -/
theorem entry?_after (hready : s.Ready other w.disk) (c : Change) (f : Bool) :
    (s.after b role w c).disk.entry? f (s.path other) = w.disk.entry? f (s.path other) := by
  obtain ⟨hworking, hdirs⟩ := directories_after (b := b) h hw c
  have hw' := s.linkFree_after b role hw c
  have hsame : ∀ p, p ≠ goal w.disk.working (s.path role) → p ≠ goal w.disk.working (temporary (s.path role)) →
      Disk.SameOrMade (s.path role) w.disk (s.after b role w c).disk p := fun p => sameOrMade_after hw c
  rw [(goal_path h.first _).1, (goal_path h.first _).2] at hsame
  generalize (s.after b role w c).disk = d at hworking hdirs hw' hsame ⊢
  rw [path_eq_join s other]
  rcases Disk.entry?_join h.second s.directory with ⟨e, hnowhere⟩ | hlook
  · rw [hnowhere, hnowhere]
  · rw [hlook d f hw', hlook w.disk f hw]
    refine Disk.look_eq hw hworking hdirs h.names.symm (fileName_ne_temporary h.first h.second) ?_ hready
    intro p hp htemp
    have hplace := hsame p hp htemp
    unfold Disk.SameOrMade at hplace
    rwa [above_path_iff h.first] at hplace

end

/-! ### What changes give -/

section

variable {session : StoredSession} {path : String} {w' : World σ}

theorem page_fileStep {op : FileOp} {r : Except FileError op.Value} (h : World.fileStep op w = (r, w')) :
    w'.page = w.page ∧ w'.now = w.now := by
  have hnow := World.now_fileStep op w
  have hpage := congrArg World.page (World.fileStep_eq op w)
  rw [h] at hnow hpage
  exact ⟨hpage, hnow⟩

theorem page_run_write (s : Store) (role : String) (session : StoredSession) (w : World σ) :
    ((s.write role session).run b w).2.page = w.page ∧ ((s.write role session).run b w).2.now = w.now := by
  unfold write
  simp only [Plan.bind_eq, Plan.run_file]
  generalize hmade : World.fileStep (.makeDirectories ((Path.parent? (s.path role)).getD "")) w = made
  obtain ⟨r, u⟩ := made
  obtain ⟨hpage, hnow⟩ := page_fileStep hmade
  cases r with
  | error e => exact ⟨hpage, hnow⟩
  | ok _ =>
      simp only [Plan.run_file]
      generalize hwritten : World.fileStep (.write (temporary (s.path role)) session.written) u = written
      obtain ⟨r, u'⟩ := written
      obtain ⟨hpage', hnow'⟩ := page_fileStep hwritten
      cases r with
      | error e => exact ⟨hpage'.trans hpage, hnow'.trans hnow⟩
      | ok _ =>
          simp only [Plan.run_file]
          generalize hmoved : World.fileStep (.rename (temporary (s.path role)) (s.path role)) u' = moved
          obtain ⟨r, u''⟩ := moved
          obtain ⟨hpage'', hnow''⟩ := page_fileStep hmoved
          cases r with
          | error e => exact ⟨hpage''.trans (hpage'.trans hpage), hnow''.trans (hnow'.trans hnow)⟩
          | ok _ => exact ⟨hpage''.trans (hpage'.trans hpage), hnow''.trans (hnow'.trans hnow)⟩

theorem page_run_clear (s : Store) (role : String) (w : World σ) :
    ((s.clear (some role)).run b w).2.page = w.page ∧ ((s.clear (some role)).run b w).2.now = w.now := by
  rw [clear, clearRole, Plan.bind_eq, Plan.run_file]
  generalize hremoved : World.fileStep (.remove (s.path role)) w = removed
  obtain ⟨r, u⟩ := removed
  obtain ⟨hpage, hnow⟩ := page_fileStep hremoved
  dsimp only
  split
  · exact ⟨hpage, hnow⟩
  · exact ⟨hpage, hnow⟩
  · exact ⟨hpage, hnow⟩

/-- What the page gives out when it is asked for the second time. -/
def givenAgain (b : PageBehaviour σ) (w : World σ) : Except PageError (Option StoredSession) :=
  given b (w.step b (.page .storageState)).after .save

theorem given_congr (hpage : w'.page = w.page) (hnow : w'.now = w.now) (c : Change) : given b w' c = given b w c := by
  unfold given
  rw [hpage, hnow]

/-- What a change is given does not depend on a change before it, unless both ask the page. -/
theorem given_after (hpage : c = .save → c' = .save → givenAgain b w = given b w .save) :
    given b (s.after b role w c) c' = given b w c' := by
  cases c with
  | write session =>
      obtain ⟨hsame, hnow⟩ := page_run_write (b := b) s role session w
      exact given_congr hsame hnow c'
  | clear =>
      obtain ⟨hsame, hnow⟩ := page_run_clear (b := b) s role w
      exact given_congr hsame hnow c'
  | save =>
      cases c' with
      | write session => rfl
      | clear => rfl
      | save =>
          have hagain := hpage rfl rfl
          rw [← hagain, givenAgain, after, run_save]
          cases (b.respond .storageState w.page w.now).outcome with
          | error e => rfl
          | ok session =>
              obtain ⟨hsame, hnow⟩ := page_run_write (b := b) s role session (w.step b (.page .storageState)).after
              exact given_congr hsame hnow .save

theorem run_save_ok_iff (hw : w.disk.tree.LinkFree) : ((s.save role).run b w).1 = .ok path ↔
    path = s.path role ∧ (∃ session, (b.respond .storageState w.page w.now).outcome = .ok session) ∧
      s.Writable role w.disk := by
  have hdisk := (World.disk_step b (r := .page .storageState) trivial w).1
  rw [run_save]
  generalize (w.step b (.page .storageState)).after = v at hdisk ⊢
  have hwrite : ∀ session : StoredSession, ((s.write role session).run b v).1 = .ok path ↔
      path = s.path role ∧ s.Writable role w.disk := by
    intro session
    rw [← hdisk]
    exact run_write_ok_iff (hdisk ▸ hw)
  cases (b.respond .storageState w.page w.now).outcome with
  | error e => simp
  | ok session =>
      refine (hwrite session).trans ?_
      simp

theorem run_clear_congr (h : w'.disk.entry? false (s.path role) = w.disk.entry? false (s.path role)) :
    ((s.clear (some role)).run b w').1 = ((s.clear (some role)).run b w).1 := by
  have hremove : (World.fileStep (.remove (s.path role)) w').1 = (World.fileStep (.remove (s.path role)) w).1 := by
    simp only [World.fileStep, Disk.remove, h]
    generalize w.disk.entry? false (s.path role) = found
    rcases found with e | ⟨p, e⟩
    · rfl
    · cases e <;> rfl
  rw [clear, clearRole, Plan.bind_eq, Plan.run_file, Plan.run_file, hremove]
  generalize (World.fileStep (.remove (s.path role)) w').2 = v'
  generalize (World.fileStep (.remove (s.path role)) w).2 = v
  split <;> rfl

/-- Whether a change succeeds depends on the directories, on what stands at its path, and on what it is given. -/
theorem outcome_congr (hw : w.disk.tree.LinkFree) (hw' : w'.disk.tree.LinkFree)
    (hgiven : given b w' c = given b w c) (hwritable : s.Writable role w.disk → s.Writable role w'.disk)
    (hentry : w'.disk.entry? false (s.path role) = w.disk.entry? false (s.path role)) {v : c.Value}
    (h : outcome b s role w c = .ok v) : outcome b s role w' c = .ok v := by
  cases c with
  | write session =>
      obtain ⟨hpath, hcan⟩ := (run_write_ok_iff hw).mp h
      exact (run_write_ok_iff hw').mpr ⟨hpath, hwritable hcan⟩
  | save =>
      obtain ⟨hpath, ⟨session, hexport⟩, hcan⟩ := (run_save_ok_iff hw).mp h
      refine (run_save_ok_iff hw').mpr ⟨hpath, ?_, hwritable hcan⟩
      unfold given at hgiven
      rw [hexport] at hgiven
      cases hexport' : (b.respond .storageState w'.page w'.now).outcome with
      | error e =>
          rw [hexport'] at hgiven
          cases hgiven
      | ok session' => exact ⟨session', rfl⟩
  | clear => exact (run_clear_congr hentry).trans h

theorem read_after (hw : w.disk.tree.LinkFree) {v : c.Value} (h : outcome b s role w c = .ok v) :
    ∃ session, given b w c = .ok session ∧ (s.after b role w c).disk.read (s.path role) = left session := by
  cases c with
  | write session =>
      change ((s.write role session).run b w).1 = (.ok v : Except StorageError String) at h
      obtain ⟨w', hrun⟩ := Plan.exists_run_eq b h
      have hfile := (hasFile_of_run_write hw hrun).2
      rw [after, hrun]
      exact ⟨some session, rfl, hfile.read⟩
  | save =>
      change ((s.save role).run b w).1 = (.ok v : Except StorageError String) at h
      obtain ⟨w', hrun⟩ := Plan.exists_run_eq b h
      obtain ⟨hpath, session, hexport, hfile⟩ := (whole_of_run_save hw hrun).stored v rfl
      rw [after, given, hrun, hexport, ← hpath]
      exact ⟨some session, rfl, hfile.read⟩
  | clear =>
      change ((s.clear (some role)).run b w).1 = (.ok v : Except StorageError Nat) at h
      obtain ⟨w', hrun⟩ := Plan.exists_run_eq b h
      rw [after, hrun]
      rcases run_clearRole_cases hrun with ⟨e, he, -⟩ | ⟨n, -, hgone, -⟩
      · cases he
      · exact ⟨none, rfl, hgone⟩

end

/-! ### One change after the other -/

/-- What a change that succeeds does to the directories: they are made above the role, or they stay. -/
theorem directories_of_ok (hw : w.disk.tree.LinkFree) {v : c.Value} (h : outcome b s role w c = .ok v) :
    (∃ now e, w.disk.makeDirectories now ((Path.parent? (s.path role)).getD "") = (e, none) ∧
        e.Free (s.path role) ∧ Disk.SameDirectories e (s.after b role w c).disk) ∨
      (s.after b role w c).disk = w.disk ∨
        ∃ q, w.disk.resolve false (s.path role) = .ok q ∧ ¬ w.disk.tree.HasDirectory q ∧
          (s.after b role w c).disk = w.disk.changed (w.disk.tree.erase q) w.wall [q] := by
  cases c with
  | write session =>
      left
      change ((s.write role session).run b w).1 = (.ok v : Except StorageError String) at h
      obtain ⟨w', hrun⟩ := Plan.exists_run_eq b h
      rw [after, hrun]
      exact sameDirectories_of_write hw hrun
  | save =>
      left
      change ((s.save role).run b w).1 = (.ok v : Except StorageError String) at h
      obtain ⟨w', hrun⟩ := Plan.exists_run_eq b h
      rw [after, hrun]
      obtain ⟨u, hu, ⟨-, e, he⟩ | ⟨session, -, hwrite⟩⟩ := run_save_cases hrun
      · cases he
      · rw [← hu] at hw ⊢
        exact sameDirectories_of_write hw hwrite
  | clear => exact .inr (clear_cases s role w)

section

variable (h : s.Apart role other) (hw : w.disk.tree.LinkFree) {v : c.Value} (hok : outcome b s role w c = .ok v)

include h hw hok

theorem Ready.after {r : String} (hready : s.Ready r w.disk) : s.Ready r (s.after b role w c).disk := by
  rcases directories_of_ok hw hok with ⟨now, e, hmade, hfree, hsame⟩ | hsame | ⟨q, -, hdir, hgone⟩
  · obtain ⟨above, hfolder⟩ := folder_of_made h.first hw hmade hfree
    exact .inl ⟨above, Disk.folder_mono hsame.working (fun p => (hsame.tree p).mp) hfolder⟩
  · rw [hsame]
    exact hready
  · have hsame := Disk.SameDirectories.of_erase hdir w.wall [q]
    rw [hgone]
    rcases hready with ⟨above, hfolder⟩ | ⟨hground, first, rest, hparts, hfirst, hstraight⟩
    · exact .inl ⟨above, Disk.folder_mono hsame.working (fun p => (hsame.tree p).mp) hfolder⟩
    · refine .inr ⟨hground.erase hdir, first, rest, hparts, hfirst.imp_right ?_, hstraight⟩
      exact fun ⟨q, hq⟩ => ⟨q, Files.descend_mono (fun p => (hsame.tree p).mp) hq⟩

theorem writable_after : s.Writable other (s.after b role w c).disk ↔ s.Writable other w.disk := by
  have hw' := s.linkFree_after b role hw c
  rcases directories_of_ok hw hok with ⟨now, e, hmade, hfree, hsame⟩ | hsame | ⟨q, hq, hdir, hgone⟩
  · exact writable_of_made h.first hw hw' hmade hfree hsame h.second
  · rw [hsame]
  · rw [path_eq_join] at hq
    obtain ⟨above, hfolder⟩ := Disk.folder_of_resolve hw h.first hq
    have hsame := Disk.SameDirectories.of_erase hdir w.wall [q]
    rw [← hgone] at hsame
    exact (writable_congr h.second hw hw' hfolder hsame).symm

end

section

variable (h : s.Apart role other) (hw : w.disk.tree.LinkFree)
variable (hrole : s.Ready role w.disk) (hother : s.Ready other w.disk)
variable (hpage : c = .save → c' = .save → givenAgain b w = given b w .save)
variable {v : c.Value} {v' : c'.Value} (hok : outcome b s role w c = .ok v)
variable (hok' : outcome b s other (s.after b role w c) c' = .ok v')

include h hw hother hpage hok hok'

theorem outcome_first : outcome b s other w c' = .ok v' := by
  have hw' := s.linkFree_after b role hw c
  exact outcome_congr hw' hw (given_after hpage).symm (writable_after h hw hok).mp
    (entry?_after h hw hother c false).symm hok'

omit hok' in
theorem outcome_second (hok' : outcome b s other w c' = .ok v') :
    outcome b s other (s.after b role w c) c' = .ok v' := by
  have hw' := s.linkFree_after b role hw c
  exact outcome_congr hw hw' (given_after hpage) (writable_after h hw hok).mpr
    (entry?_after h hw hother c false) hok'

omit hother in
include hrole in
theorem read_after_after :
    (∃ session, given b w c = .ok session ∧
        (s.after b other (s.after b role w c) c').disk.read (s.path role) = left session) ∧
      ∃ session, given b w c' = .ok session ∧
        (s.after b other (s.after b role w c) c').disk.read (s.path other) = left session := by
  have hw' := s.linkFree_after b role hw c
  constructor
  · obtain ⟨session, hgiven, hread⟩ := read_after hw hok
    have hentry := entry?_after (b := b) h.symm hw' (hrole.after h hw hok) c' true
    exact ⟨session, hgiven, ((Disk.SameAt.of_entry? hentry).read).trans hread⟩
  · obtain ⟨session, hgiven, hread⟩ := read_after hw' hok'
    exact ⟨session, (given_after hpage).symm.trans hgiven, hread⟩

end

end

/-! ### Roles of one directory -/

/-- **Roles of one directory.**  Let pattern, environment and two roles have no slashes, and let the paths of the roles
differ.  Without links, no write, save or clearing of one role, whether it succeeds or fails, has any bearing on what
is read of the other one, nor on whether that is valid at a time, if the path of the other one is ready.  If both are,
two changes that succeed one after the other succeed in the other order, too, with the same results, and the files of
both roles hold the same afterwards.  Of two saves this is asked only if the page gives out the same session twice. -/
theorem changes_independent {σ : Type} (b : PageBehaviour σ) {s : Store} {role other : String}
    (hpattern : '/' ∉ s.settings.filePattern.toList) (henv : '/' ∉ (s.env.getD defaultEnv).toList)
    (hrole : '/' ∉ role.toList) (hother : '/' ∉ other.toList) (hpath : s.path role ≠ s.path other) {w : World σ}
    (hw : w.disk.tree.LinkFree) (hready : s.Ready other w.disk) :
    (∀ c, ((s.read other).run b (s.after b role w c)).1 = ((s.read other).run b w).1 ∧
        ∀ now, ((s.isValidAt other now).run b (s.after b role w c)).1 = ((s.isValidAt other now).run b w).1) ∧
      ∀ c c' v v', s.Ready role w.disk → (c = .save → c' = .save → givenAgain b w = given b w .save) →
        outcome b s role w c = .ok v → outcome b s other (s.after b role w c) c' = .ok v' →
          (outcome b s other w c' = .ok v' ∧ outcome b s role (s.after b other w c') c = .ok v) ∧
            ∀ path, path = s.path role ∨ path = s.path other →
              (s.after b role (s.after b other w c') c).disk.read path =
                (s.after b other (s.after b role w c) c').disk.read path := by
  have h : s.Apart role other := by
    refine ⟨simple_fileNameFor hpattern henv hrole, simple_fileNameFor hpattern henv hother, fun hnames => hpath ?_⟩
    rw [path_eq_join, path_eq_join, hnames]
  constructor
  · intro c
    have hsame := Disk.SameAt.of_entry? (entry?_after (b := b) h hw hready c true)
    exact ⟨run_read_of_sameAt hsame, run_isValidAt_of_sameAt hsame⟩
  · intro c c' v v' hready' hpage hok hok'
    have hpage' : c' = .save → c = .save → givenAgain b w = given b w .save := fun hc' hc => hpage hc hc'
    have hfirst := outcome_first h hw hready hpage hok hok'
    have hsecond := outcome_second h.symm hw hready' hpage' hfirst hok
    refine ⟨⟨hfirst, hsecond⟩, ?_⟩
    obtain ⟨⟨session, hgiven, hread⟩, session', hgiven', hread'⟩ := read_after_after h hw hready' hpage hok hok'
    obtain ⟨⟨given', hagain', hswapped'⟩, given, hagain, hswapped⟩ :=
      read_after_after h.symm hw hready hpage' hfirst hsecond
    have hsession : session = given := Except.ok.inj (hgiven.symm.trans hagain)
    have hsession' : session' = given' := Except.ok.inj (hgiven'.symm.trans hagain')
    intro path hpath
    rcases hpath with heq | heq
    · rw [heq, hswapped, hread, hsession]
    · rw [heq, hswapped', hread', hsession']

/-- A store in the usual directory. -/
def shelfStore : Store := Store.mk {} none .standard

/-- Where one role is saved and the session of another one cleared, the two may be done in either order. -/
theorem changes_independent_shelf :
    ('/' ∉ shelfStore.settings.filePattern.toList ∧ '/' ∉ (shelfStore.env.getD defaultEnv).toList ∧
        '/' ∉ "admin".toList ∧ '/' ∉ "viewer".toList ∧ shelfStore.path "admin" ≠ shelfStore.path "viewer" ∧
        (shelf {}).disk.tree.LinkFree ∧ ∀ role, shelfStore.Ready role (shelf {}).disk) ∧
      outcome Manager.homePage shelfStore "viewer" (shelf {}) .clear = .ok (1 : Nat) ∧
        outcome Manager.homePage shelfStore "admin" (shelfStore.after Manager.homePage "viewer" (shelf {}) .clear)
          .save = .ok ".auth-states/admin.json" := by
  have hnames : '/' ∉ shelfStore.settings.filePattern.toList ∧ '/' ∉ (shelfStore.env.getD defaultEnv).toList ∧
      '/' ∉ "admin".toList ∧ '/' ∉ "viewer".toList := by decide
  obtain ⟨hpattern, henv, hadmin, hviewer⟩ := hnames
  have hfree := linkFree_shelf {}
  have hpaths : shelfStore.path "admin" ≠ shelfStore.path "viewer" := by decide +kernel
  have hready : ∀ role, shelfStore.Ready role (shelf {}).disk := fun role => .inl ⟨[".auth-states"], by decide +kernel⟩
  have hok : outcome Manager.homePage shelfStore "admin" (shelf {}) .save = .ok ".auth-states/admin.json" := rfl
  have hok' : outcome Manager.homePage shelfStore "viewer"
      (shelfStore.after Manager.homePage "admin" (shelf {}) .save) .clear = .ok (1 : Nat) := by
    show ((shelfStore.clear (some "viewer")).run Manager.homePage
      ((shelfStore.save "admin").run Manager.homePage (shelf {})).2).1 = .ok 1
    decide +kernel
  have hboth := (changes_independent Manager.homePage hpattern henv hadmin hviewer hpaths hfree (hready "viewer")).2
  have hresults := hboth .save .clear ".auth-states/admin.json" (1 : Nat) (hready "admin")
    (fun _ hclear => nomatch hclear) hok hok'
  exact ⟨⟨hpattern, henv, hadmin, hviewer, hpaths, hfree, hready⟩, hresults.1⟩

/-- A world with a session in a directory that can be reached upwards. -/
def yard : World Unit where
  page := ()
  disk.tree :=
    [(["states"], .directory 0), (["states", "b.json"], .file (.text (StoredSession.written {})) 0)]

/-- A page that gives out another session the second time. -/
def fickle : PageBehaviour Nat where
  url _ _ := "https://app.example/home"
  respond c n _ :=
    { duration := 0
      outcome := match c with
        | .storageState => .ok (if n = 0 then {} else { cookies := .cons .null .nil })
        | _ => .error (.other "unexpected")
      page := n + 1
      abandoned := fun _ => n }

/-- A store in the directory that is reached upwards. -/
def yardStore : Store := Store.mk { directory := "x/../states" } none .standard

/-- A world with such a page and no files. -/
def meadow : World Nat where
  page := 0

/-- The write of one role makes a directory, through which the path of another one leads on to a session.  And a page
that gives out one session after the other leaves other files if the roles are saved in the other order. -/
theorem changes_interfere :
    (('/' ∉ yardStore.settings.filePattern.toList ∧ '/' ∉ (yardStore.env.getD defaultEnv).toList ∧
        '/' ∉ "a".toList ∧ '/' ∉ "b".toList ∧ yardStore.path "a" ≠ yardStore.path "b" ∧ yard.disk.tree.LinkFree) ∧
      (∃ e, ((yardStore.read "b").run Manager.homePage yard).1 = .error e ∧ e.cause = .missing) ∧
      ((yardStore.read "b").run Manager.homePage (yardStore.after Manager.homePage "a" yard (.write {}))).1 =
        .ok {}) ∧
    (meadow.disk.tree.LinkFree ∧ shelfStore.path "a" ≠ shelfStore.path "b" ∧
      (outcome fickle shelfStore "a" meadow .save = .ok ".auth-states/a.json" ∧
        outcome fickle shelfStore "b" (shelfStore.after fickle "a" meadow .save) .save = .ok ".auth-states/b.json") ∧
      (shelfStore.after fickle "b" (shelfStore.after fickle "a" meadow .save) .save).disk.read ".auth-states/a.json" ≠
        (shelfStore.after fickle "a" (shelfStore.after fickle "b" meadow .save) .save).disk.read
          ".auth-states/a.json") := by
  have hnames : '/' ∉ yardStore.settings.filePattern.toList ∧ '/' ∉ (yardStore.env.getD defaultEnv).toList ∧
      '/' ∉ "a".toList ∧ '/' ∉ "b".toList := by decide
  obtain ⟨hpattern, henv, ha, hb⟩ := hnames
  have hpath : yardStore.path "b" = "x/../states/b.json" := by decide +kernel
  have hexportable : ({} : StoredSession).Exportable := ⟨trivial, trivial, by decide⟩
  refine ⟨⟨⟨hpattern, henv, ha, hb, by decide +kernel, ?_⟩, ?_, ?_⟩, ?_, by decide +kernel, ⟨rfl, ?_⟩, ?_⟩
  · apply Files.Tree.linkFree_of_forall
    simp [yard]
  · apply run_read_of_notFound
    rw [hpath]
    decide +kernel
  · have hread : (yardStore.after Manager.homePage "a" yard (.write {})).disk.read (yardStore.path "b") =
        .ok (.text (StoredSession.written {})) := by
      rw [hpath]
      rw [after]
      decide +kernel
    exact read_of_content hexportable hread rfl
  · apply Files.Tree.linkFree_of_forall
    simp [meadow]
  · rw [after]
    show ((shelfStore.save "b").run fickle ((shelfStore.save "a").run fickle meadow).2).1 = .ok ".auth-states/b.json"
    decide +kernel
  · rw [after, after, after, after]
    decide +kernel

end SignOn.Store
