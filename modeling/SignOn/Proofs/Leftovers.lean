import SignOn.Proofs.Cleanups
import SignOn.Proofs.Lasting

/-! # What is left when all is cleared

Sessions are written, saved, cleared and cleaned up, and then all of them are cleared.

* `beside_of_run_write`: a file that a write brings has the name of the session in the directory, or the one beside it.
  It is left beside only if a directory has the name of the session (`directory_of_rename_error`), and such a directory
  cannot be cleared.
* All that is asked of a store keeps directories and makes no links (`steady_behindAll`).  A file that is there in the
  end has been there all the time, or there is a deed that brings it (`exists_brings`).
* Clearing all leaves nothing with the extension in the directory (`none_left_of_clear`).
* `left_of_clear` says what is left then, and `escapes_clear` that this is not nothing. -/

namespace SignOn

/-- An attempt to take something away that has failed. -/
def Event.failedRemoval {σ : Type} : Event σ → Bool
  | ⟨_, .file (.remove _), some (.ok _)⟩ => false
  | ⟨_, .file (.remove _), _⟩ => true
  | _ => false

namespace Store

open Files (Disk Place Tree)

/-! ### Links beside sessions -/

/-- No link has the name of a file that a session is first written to. -/
def NoLinkBeside (d : Disk) : Prop :=
  ∀ name, IsSessionName name → NoLinkNamed d (temporary name)

theorem NoLinkBeside.of_steady {d d' : Disk} (h : NoLinkBeside d) (hsteady : d.Steady d') : NoLinkBeside d' :=
  fun name hname p target hp hlink => h name hname p target hp (hsteady.tree.links p target hlink)

section

variable {σ : Type} {b : PageBehaviour σ} {s : Store} {role : String} {session : StoredSession} {w w' : World σ}

/-! ### Writing -/

theorem isSessionName_fileName (s : Store) (role : String) : IsSessionName (s.fileName role) :=
  exists_toList_withEnding (bareName s.settings.filePattern s.env role)

theorem simple_fileName (hslash : '/' ∉ (s.fileName role).toList) : Path.Simple (s.fileName role) :=
  .of_length hslash (Nat.le_trans (by decide) length_fileNameFor)

theorem hasExtension_fileName (hending : s.fileName role ≠ ending) :
    Path.hasExtension (s.fileName role) "json" = true := by
  obtain ⟨x, hx⟩ := isSessionName_fileName s role
  refine Path.hasExtension_of_ending hx fun hnil => hending ?_
  rw [hnil, List.nil_append] at hx
  exact String.toList_inj.mp hx

/-- The path of the file that a session is first written to ends in a name that no link has. -/
theorem exists_name_temporary {d : Disk} (hlinks : NoLinkBeside d) (s : Store) (role : String) :
    ∃ init name, Path.parts (temporary (s.path role)) = init ++ [name] ∧ name ≠ ".." ∧
      ∀ p target, p.getLast? = some name → d.tree.get? p ≠ some (.link target) := by
  obtain ⟨init, last, -, hparts⟩ := s.exists_parts_path role
  have htemp : String.ofList (last ++ (ending ++ ".tmp").toList) =
      temporary (String.ofList (last ++ ending.toList)) := by
    rw [temporary, ← String.toList_inj]
    simp
  refine ⟨init, _, hparts, fun h => ?_, ?_⟩
  · have hlen := congrArg String.length h
    rw [String.length_ofList, List.length_append] at hlen
    have hending : (ending ++ ".tmp").toList.length = 9 := by decide
    have hdots : ("..".length) = 2 := rfl
    omega
  · rw [htemp]
    exact hlinks _ ⟨last, String.toList_ofList⟩

/-- Moving the file that has been written keeps all directories, and makes no links. -/
theorem steady_of_rename {d d' d'' : Disk} (hlinks : NoLinkBeside d) {now : Int} {c : Files.Content}
    (hwrite : d.write now (temporary (s.path role)) c = .ok d')
    (hmove : d'.rename now (temporary (s.path role)) (s.path role) = .ok d'') : d'.Steady d'' := by
  obtain ⟨init, name, hparts, hup, hname⟩ := exists_name_temporary hlinks s role
  obtain ⟨p, e, q, hp, he, -, hno, rfl⟩ := Disk.rename_eq_ok hmove
  have hfile := Disk.get?_of_write hparts hup hname hwrite hp
  obtain rfl := Option.some.inj (he.symm.trans hfile)
  have hthin : d'.tree.Thinned (d'.tree.erase p) := by
    refine .erase fun ⟨m, hm⟩ => ?_
    cases hm.symm.trans hfile
  exact ⟨rfl, (Tree.Steady.of_thinned hthin).trans (.set (fun hdir => hno (hthin.hasDirectory hdir)) _ _)⟩

theorem steady_of_run_write (hlinks : NoLinkBeside w.disk) {r : Except StorageError String}
    (h : (s.write role session).run b w = (r, w')) : w.disk.Steady w'.disk := by
  obtain ⟨-, d, hgrown, ⟨hw', -⟩ | ⟨d', hwrite, ⟨hw', -⟩ | ⟨hmove, -⟩⟩⟩ := run_write_cases h
  · rw [hw']
    exact .of_grown hgrown
  · rw [hw']
    exact (Disk.Steady.of_grown hgrown).trans (.of_write hwrite)
  · have hmoved := steady_of_rename (hlinks.of_steady (.of_grown hgrown)) hwrite hmove
    exact ((Disk.Steady.of_grown hgrown).trans (.of_write hwrite)).trans hmoved

/-- Where the file that has been written cannot be moved, a directory has the name of the session. -/
theorem directory_of_rename_error {d : Disk} {above : Place} {e : Files.Entry} {f : FileError} {now : Int}
    (hname : Path.Simple (s.fileName role)) (hlinks : NoLinkBeside d) (he : ∀ m, e ≠ .directory m)
    (hplace : d.entry? true (temporary (s.path role)) = .ok (above ++ [temporary (s.fileName role)], e))
    (hmove : d.rename now (temporary (s.path role)) (s.path role) = .error f) :
    d.tree.HasDirectory (above ++ [s.fileName role]) := by
  by_contra hno
  obtain ⟨hresolve, hentry⟩ := Disk.entry?_eq_ok.mp hplace
  have hnoTemp : ¬ d.tree.HasDirectory (above ++ [temporary (s.fileName role)]) := by
    rintro ⟨m, hm⟩
    exact he m (Option.some.inj (hentry.symm.trans hm))
  obtain ⟨husable, -⟩ := Disk.resolve_eq_ok_iff.mp hresolve
  have htemp := simple_temporary hname length_fileNameFor
  have hlink := hlinks _ (isSessionName_fileName s role)
  have hsource : d.resolve false (temporary (s.path role)) = .ok (above ++ [temporary (s.fileName role)]) := by
    rw [temporary_path hname] at hresolve husable ⊢
    exact Disk.resolve_sibling htemp htemp (Nat.le_refl _) husable (fun _ => hlink) hresolve hnoTemp
  have htarget : d.resolve false (s.path role) = .ok (above ++ [s.fileName role]) := by
    have hlen : (s.fileName role).utf8ByteSize ≤ (temporary (s.fileName role)).utf8ByteSize := by
      rw [temporary, String.utf8ByteSize_append]
      exact Nat.le_add_right _ _
    have husable' : s.path role ≠ "" ∧ (s.path role).toList.contains '\x00' = false ∧
        (s.path role).utf8ByteSize ≤ Files.maxPath := by
      obtain ⟨-, hnul, hlong⟩ := husable
      rw [temporary, String.toList_append, List.contains_append, Bool.or_eq_false_iff] at hnul
      rw [temporary, String.utf8ByteSize_append] at hlong
      refine ⟨fun hempty => ?_, hnul.1, by omega⟩
      have hparts := hname.parts_join s.directory
      rw [← path_eq_join, hempty, Path.parts_empty] at hparts
      simp at hparts
    rw [temporary_path hname] at hresolve
    rw [path_eq_join] at husable' ⊢
    exact Disk.resolve_sibling htemp hname hlen husable' (fun _ => hlink) hresolve hno
  -- Both names lead into the directory, so only a directory under the second one could have been in the way.
  rw [Disk.rename, Disk.entry?_eq_ok.mpr ⟨hsource, hentry⟩, htarget] at hmove
  dsimp only at hmove
  split at hmove
  · next m hm => exact hno ⟨m, hm⟩
  · cases hmove

section

variable {d d' d'' : Disk} {above p : Place} {now : Int} {c : Files.Content} (hname : Path.Simple (s.fileName role))

include hname

/-- What is written for a role stands in the directory, beside its session, and all else stays. -/
theorem written_beside (hlinks : NoLinkBeside d) (hnamed : s.directory ≠ "") (hdirect : d.Direct s.directory)
    (hwrite : d.write now (temporary (s.path role)) c = .ok d') :
    ∃ above, d'.home s.directory = .ok above ∧ d'.tree.HasDirectory above ∧
      d'.entry? true (temporary (s.path role)) = .ok (above ++ [temporary (s.fileName role)], .file c now) ∧
      ∀ p, p ≠ above ++ [temporary (s.fileName role)] → d'.tree.get? p = d.tree.get? p := by
  have hlink := hlinks _ (isSessionName_fileName s role)
  obtain ⟨q, hq, hno, hd'⟩ := Disk.write_eq_ok hwrite
  have hjoin := hq
  rw [temporary_path hname] at hjoin
  obtain ⟨above, hhome, hlook, hplace⟩ := Disk.resolve_join (simple_temporary hname length_fileNameFor) hjoin
  obtain rfl := hplace.resolve_right fun ⟨_, target, htarget⟩ => hlink _ target List.getLast?_concat htarget
  have hsteady := Disk.Steady.of_write hwrite
  have hhome' := (Disk.names_of_steady hnamed hdirect hhome hlook.directory hsteady).1
  have hfile : d.tree.AtMostFile (above ++ [temporary (s.fileName role)]) :=
    Tree.atMostFile_of_not hno fun target => hlink _ target List.getLast?_concat
  have hways : d.tree.SameWays d'.tree := by
    rw [hd']
    exact hfile.sameWays_set c now
  have hfound := Disk.resolve_of_sameWays hsteady.working hways hq
  refine ⟨above, hhome', hsteady.tree.directories above hlook.directory, Disk.entry?_eq_ok.mpr ⟨hfound, ?_⟩, ?_⟩
  · rw [hd']
    exact Tree.get?_set_self _ hfile.ne_nil
  · intro p hp
    rw [hd']
    exact Tree.get?_set_of_ne _ hp

/-- Once it has been moved, the session stands in the directory, nothing stands beside it, and all else stays. -/
theorem moved_beside (hhome : d'.home s.directory = .ok above)
    (hmove : d'.rename now (temporary (s.path role)) (s.path role) = .ok d'') (hp : p ≠ above ++ [s.fileName role]) :
    d''.tree.get? p = none ∨
      p ≠ above ++ [temporary (s.fileName role)] ∧ d''.tree.get? p = d'.tree.get? p := by
  obtain ⟨source, e, target, hsource, -, htarget, -, rfl⟩ := Disk.rename_eq_ok hmove
  have hin : ∀ {name : String} {q : Place}, Path.Simple name →
      d'.resolve false (Path.join s.directory name) = .ok q → q = above ++ [name] := by
    intro name q hsimple hq
    obtain ⟨above', habove', -, hplace⟩ := Disk.resolve_join hsimple hq
    obtain rfl : above = above' := Except.ok.inj (hhome.symm.trans habove')
    exact hplace.resolve_right fun h => Bool.false_ne_true h.1
  rw [temporary_path hname] at hsource
  rw [path_eq_join] at htarget
  obtain rfl := hin (simple_temporary hname length_fileNameFor) hsource
  obtain rfl := hin hname htarget
  rw [Disk.changed_tree, Tree.get?_set_of_ne _ hp]
  by_cases hbeside : p = above ++ [temporary (s.fileName role)]
  · have hroot : p ≠ [] := hbeside ▸ List.concat_ne_nil _ above
    rw [← hbeside]
    exact .inl (Tree.get?_erase_self hroot)
  · exact .inr ⟨hbeside, Tree.get?_erase_of_ne hbeside⟩

end

/-- Where a file that a write has brought stands: in the directory, under the name of the session or beside it.  It is
left beside if a directory has the name of the session, or if the write has been stopped. -/
structure Beside (s : Store) (role : String) (stopped : Bool) (d : Disk) (above p : Place) : Prop where
  home : d.home s.directory = .ok above
  directory : d.tree.HasDirectory above
  place : p = above ++ [s.fileName role] ∨ p = above ++ [temporary (s.fileName role)] ∧
    (d.tree.HasDirectory (above ++ [s.fileName role]) ∨ stopped = true)

theorem beside_of_run_write (hname : Path.Simple (s.fileName role)) (hlinks : NoLinkBeside w.disk)
    (hnamed : s.directory ≠ "") (hdirect : w.disk.Direct s.directory) {r : Except StorageError String}
    (h : (s.write role session).run b w = (r, w')) {p : Place} {c : Files.Content} {m : Int}
    (hnew : w.disk.tree.get? p ≠ some (.file c m)) (hfile : w'.disk.tree.get? p = some (.file c m)) :
    ∃ above, s.Beside role false w'.disk above p := by
  obtain ⟨-, d, failure, hmade, hrest⟩ := run_write_parts h
  have hgrown := Disk.grown_of_makeDirectories hmade
  have hsteady := Disk.Steady.of_grown hgrown
  have hlinks' := hlinks.of_steady hsteady
  have hdirect' := hdirect.of_steady hsteady
  have hnew' : d.tree.get? p ≠ some (.file c m) :=
    fun hd => hnew ((hgrown.tree.get?_iff p fun _ => Files.Entry.noConfusion).mp hd)
  rcases hrest with ⟨hw', -⟩ | ⟨d', hwrite, hrest⟩
  · rw [hw'] at hfile
    exact absurd hfile hnew'
  obtain ⟨above, hhome, hdir, hfound, hothers⟩ := written_beside hname hlinks' hnamed hdirect' hwrite
  rcases hrest with ⟨⟨f, hmove⟩, hw', -⟩ | ⟨hmove, -⟩
  · rw [hw'] at hfile ⊢
    have hp : p = above ++ [temporary (s.fileName role)] := by
      by_contra hp
      exact hnew' ((hothers p hp).symm.trans hfile)
    have hdirectory := directory_of_rename_error hname (hlinks'.of_steady (.of_write hwrite))
      (fun _ => Files.Entry.noConfusion) hfound hmove
    exact ⟨above, hhome, hdir, .inr ⟨hp, .inl hdirectory⟩⟩
  · have hmoved := steady_of_rename hlinks' hwrite hmove
    obtain ⟨hhome', hdir', -⟩ :=
      Disk.names_of_steady hnamed (hdirect'.of_steady (.of_write hwrite)) hhome hdir hmoved
    refine ⟨above, hhome', hdir', .inl ?_⟩
    by_contra hp
    rcases moved_beside hname hhome hmove hp with hnone | ⟨hbeside, hsame⟩
    · cases hfile.symm.trans hnone
    · rw [hothers p hbeside] at hsame
      exact hnew' (hsame.symm.trans hfile)

end

/-! ### Clearing all -/

section

variable {σ : Type} {b : PageBehaviour σ} {s : Store} {w : World σ}

theorem trace_file (op : FileOp) {α : Type} (f : Except FileError op.Value → Plan α) :
    ((Plan.file op).bind f).trace b w =
      ⟨w, .file op, some (World.fileStep op w).1⟩ :: (f (World.fileStep op w).1).trace b (World.fileStep op w).2 := rfl

/-- Where no attempt to take a file away fails, each of the files is taken away at its turn. -/
theorem removed_of_removeAll (paths : List String)
    (hall : ∀ e ∈ (s.removeAll paths).trace b w, e.failedRemoval = false) :
    w.disk.Thinned ((s.removeAll paths).run b w).2.disk ∧ ∀ path ∈ paths, ∃ d d', w.disk.Thinned d ∧
      d.remove w.wall path = .ok d' ∧ d'.Thinned ((s.removeAll paths).run b w).2.disk := by
  induction paths generalizing w with
  | nil => exact ⟨.refl _, fun _ h => absurd h List.not_mem_nil⟩
  | cons path paths ih =>
      rw [removeAll, Plan.bind_eq, trace_file] at hall
      have hfirst := hall _ List.mem_cons_self
      cases hremove : w.disk.remove w.wall path with
      | error e =>
          have hstep : World.fileStep (.remove path) w = (.error e, w) := by simp only [World.fileStep, hremove]
          rw [hstep] at hfirst
          cases hfirst
      | ok d =>
          have hstep : World.fileStep (.remove path) w = (.ok (), w.withDisk d) := by
            simp only [World.fileStep, hremove]
            rfl
          have hafter : ((s.removeAll (path :: paths)).run b w).2 = ((s.removeAll paths).run b (w.withDisk d)).2 := by
            rw [removeAll, Plan.bind_eq, Plan.run_file, hstep]
            show (((s.removeAll paths).bind _).run b (w.withDisk d)).2 = _
            rw [Plan.run_bind]
            rfl
          have hrest : ∀ e ∈ (s.removeAll paths).trace b (w.withDisk d), e.failedRemoval = false := by
            intro e he
            refine hall e (List.mem_cons_of_mem _ ?_)
            rw [hstep]
            show e ∈ ((s.removeAll paths).bind _).trace b (w.withDisk d)
            rw [Plan.trace_bind]
            exact List.mem_append_left _ he
          obtain ⟨hthin, hgone⟩ := ih hrest
          have hfirst : w.disk.Thinned d := Disk.thinned_remove hremove
          rw [hafter]
          refine ⟨hfirst.trans hthin, fun other hother => ?_⟩
          rcases List.mem_cons.mp hother with rfl | hother
          · exact ⟨w.disk, d, .refl _, hremove, hthin⟩
          · obtain ⟨d₁, d₂, hbefore, hother, hbehind⟩ := hgone other hother
            exact ⟨d₁, d₂, hfirst.trans hbefore, hother, hbehind⟩

section

variable {names : List String} (hnames : w.disk.names s.directory = .ok names)

include hnames

theorem disk_run_clear_all : ((s.clear none).run b w).2.disk =
    ((s.removeAll ((names.filter (Path.hasExtension · "json")).map (Path.join s.directory))).run b w).2.disk := by
  rw [clear, Plan.bind_eq, Plan.run_bind_of_eq b (run_files_of_ok b s w hnames)]
  dsimp only
  rw [Plan.bind_eq, Plan.run_bind]
  rfl

/-- When all is cleared, the directory is looked at, and then files are taken away. -/
theorem failedRemoval_clear_all : (∀ e ∈ (s.clear none).trace b w, e.failedRemoval = false) ↔
    ∀ e ∈ (s.removeAll ((names.filter (Path.hasExtension · "json")).map (Path.join s.directory))).trace b w,
      e.failedRemoval = false := by
  have htrace : (s.clear none).trace b w = s.files.trace b w ++
      ((s.removeAll ((names.filter (Path.hasExtension · "json")).map (Path.join s.directory))).bind fun n => do
        s.logger.info ("cleared " ++ toString n ++ " storage state file(s)")
        return .ok n : Plan (Except StorageError Nat)).trace b w := by
    rw [clear, Plan.bind_eq, Plan.trace_bind, run_files_of_ok b s w hnames]
    rfl
  have hlook : ∀ e ∈ s.files.trace b w, e.failedRemoval = false := by
    have hone : s.files.trace b w = [⟨w, .file (.names s.directory), some (.ok names)⟩] := by
      rw [files, Plan.bind_eq, trace_file, World.fileStep, hnames]
      rfl
    rw [hone]
    exact List.forall_mem_singleton.mpr rfl
  rw [htrace, Plan.trace_bind, List.forall_mem_append, List.forall_mem_append]
  refine ⟨fun h => h.2.1, fun h => ⟨hlook, h, fun e he => ?_⟩⟩
  obtain rfl := List.mem_singleton.mp he
  rfl

end

/-- Where no attempt fails, clearing all takes away each file of the directory with the extension. -/
theorem removed_of_clear (hall : ∀ e ∈ (s.clear none).trace b w, e.failedRemoval = false) :
    w.disk.Thinned ((s.clear none).run b w).2.disk ∧
      ∀ names, w.disk.names s.directory = .ok names → ∀ name ∈ names, Path.hasExtension name "json" = true →
        ∃ d d', w.disk.Thinned d ∧ d.remove w.wall (Path.join s.directory name) = .ok d' ∧
          d'.Thinned ((s.clear none).run b w).2.disk := by
  cases hnames : w.disk.names s.directory with
  | error e =>
      have hdisk : ((s.clear none).run b w).2.disk = w.disk := by
        rw [clear, Plan.bind_eq, Plan.run_bind_of_eq b (run_files_of_error b s w hnames)]
        split
        · rfl
        · rfl
        · next heq => cases heq
      rw [hdisk]
      refine ⟨.refl _, fun names hok => ?_⟩
      cases hok
  | ok names =>
      obtain ⟨hthin, hgone⟩ := removed_of_removeAll _ ((failedRemoval_clear_all hnames).mp hall)
      rw [disk_run_clear_all hnames]
      refine ⟨hthin, fun names' hnames' name hname hext => ?_⟩
      obtain rfl := Except.ok.inj hnames'
      exact hgone _ (List.mem_map_of_mem (List.mem_filter.mpr ⟨hname, hext⟩))

/-- Nothing with the extension is left in a directory that can be read, and no directory had it before. -/
theorem none_left_of_clear (hall : ∀ e ∈ (s.clear none).trace b w, e.failedRemoval = false) {names : List String}
    (hnames : w.disk.names s.directory = .ok names) {above : Place} (hhome : w.disk.home s.directory = .ok above)
    {name : String} (hname : Path.Simple name) (hext : Path.hasExtension name "json" = true) :
    ¬ w.disk.tree.HasDirectory (above ++ [name]) ∧
      ((s.clear none).run b w).2.disk.tree.get? (above ++ [name]) = none := by
  obtain ⟨above', -, -, hhome', rfl⟩ := Disk.names_eq_ok hnames
  obtain rfl : above = above' := Except.ok.inj (hhome.symm.trans hhome')
  obtain ⟨hthin, hgone⟩ := removed_of_clear hall
  by_cases hmem : name ∈ w.disk.tree.names above
  · obtain ⟨d, d', hbefore, hremove, hbehind⟩ := hgone _ hnames name hmem hext
    obtain ⟨above', habove, hdir, hno, -, rfl⟩ := Disk.remove_join hname hremove
    obtain rfl : above = above' := Except.ok.inj (hhome.symm.trans (hbefore.home habove hdir))
    refine ⟨fun hdirectory => hno (hbefore.tree.keeps_directory hdirectory), ?_⟩
    have hroot : above ++ [name] ≠ [] := List.concat_ne_nil name above
    cases hleft : ((s.clear none).run b w).2.disk.tree.get? (above ++ [name]) with
    | none => rfl
    | some e =>
        have hstood := hbehind.tree.get? hleft
        rw [Disk.changed_tree, Tree.get?_erase_self hroot] at hstood
        cases hstood
  · rw [Tree.mem_names_iff] at hmem
    refine ⟨fun ⟨m, hm⟩ => hmem ⟨_, hm⟩, ?_⟩
    cases hleft : ((s.clear none).run b w).2.disk.tree.get? (above ++ [name]) with
    | none => rfl
    | some e => exact absurd ⟨e, hthin.tree.get? hleft⟩ hmem

end

/-! ### One thing after the other -/

/-- What is asked of a store.  A write is `interrupted` if the system stops it: directories have been made for a path,
the file beside the session may hold anything, and it has not been moved. -/
inductive Deed where
  | change (role : String) (c : Change)
  | interrupted (role made : String) (content : Option Files.Content)
  | cleanup (maxAge : Nat) (now : Int)
  | pause (ms : Nat)

/-- The role that a deed writes for. -/
def Deed.writes? : Deed → Option String
  | .change _ .clear => none
  | .change role _ => some role
  | .interrupted role .. => some role
  | _ => none

def Deed.stopped : Deed → Bool
  | .interrupted .. => true
  | _ => false

section

variable {σ : Type} (b : PageBehaviour σ) (s : Store)

/-- What a write leaves that is interrupted. -/
def remains (d : Disk) (now : Int) (role made : String) (content : Option Files.Content) : Disk :=
  let d := (d.makeDirectories now made).1
  match content with
  | none => d
  | some c =>
    match d.write now (temporary (s.path role)) c with
    | .ok d' => d'
    | .error _ => d

def behind (w : World σ) : Deed → World σ
  | .change role c => s.after b role w c
  | .interrupted role made content => w.withDisk (s.remains w.disk w.wall role made content)
  | .cleanup maxAge now => ((s.cleanupAt maxAge now).run b w).2
  | .pause ms => w.advance ms

/-- The world behind several deeds, one after the other. -/
def behindAll (w : World σ) (deeds : List Deed) : World σ :=
  deeds.foldl (s.behind b) w

theorem behindAll_append (w : World σ) (before after : List Deed) :
    s.behindAll b w (before ++ after) = s.behindAll b (s.behindAll b w before) after :=
  List.foldl_append

/-- A deed brings a file to a place. -/
structure Brings (w : World σ) (deed : Deed) (p : Place) (c : Files.Content) (m : Int) : Prop where
  before : w.disk.tree.get? p ≠ some (.file c m)
  behind : (s.behind b w deed).disk.tree.get? p = some (.file c m)

variable {b s} {w : World σ} {p : Place} {c : Files.Content} {m : Int}

theorem thinned_cleanup (maxAge : Nat) (now : Int) (w : World σ) :
    w.disk.Thinned (s.behind b w (.cleanup maxAge now)).disk := by
  obtain ⟨w', hrun⟩ := Plan.exists_run_eq (w := w) b (p := s.cleanupAt maxAge now) rfl
  rw [behind, hrun]
  rcases run_cleanupAt_cases hrun with ⟨e, -, hdisk, -⟩ | ⟨names, outcome, -, -, -, hsweep⟩
  · rw [hdisk]
    exact .refl _
  · exact hsweep.thinned

theorem thinned_clear (role : String) (w : World σ) : w.disk.Thinned (s.behind b w (.change role .clear)).disk := by
  rw [behind, after, disk_run_clear, World.fileStep]
  cases hremove : w.disk.remove w.wall (s.path role) with
  | error e => exact .refl _
  | ok d => exact Disk.thinned_remove hremove

/-- An interrupted write makes directories, and may write the file beside the session. -/
theorem remains_cases (d : Disk) (now : Int) (role made : String) (content : Option Files.Content) :
    ∃ d₁, d.Grown d₁ ∧ (s.remains d now role made content = d₁ ∨
      ∃ c, d₁.write now (temporary (s.path role)) c = .ok (s.remains d now role made content)) := by
  refine ⟨_, Disk.grown_makeDirectories d now made, ?_⟩
  unfold remains
  cases content with
  | none => exact .inl rfl
  | some c =>
      dsimp only
      cases hwrite : (d.makeDirectories now made).1.write now (temporary (s.path role)) c with
      | error e => exact .inl rfl
      | ok d' => exact .inr ⟨c, hwrite⟩

theorem steady_behind (hlinks : NoLinkBeside w.disk) (deed : Deed) : w.disk.Steady (s.behind b w deed).disk := by
  cases deed with
  | pause ms => exact .refl _
  | cleanup maxAge now => exact .of_thinned (thinned_cleanup maxAge now w)
  | interrupted role made content =>
      obtain ⟨d, hgrown, heq | ⟨c, hwrite⟩⟩ := s.remains_cases w.disk w.wall role made content
      · rw [behind, World.withDisk, heq]
        exact .of_grown hgrown
      · exact (Disk.Steady.of_grown hgrown).trans (.of_write hwrite)
  | change role c =>
      cases c with
      | clear => exact .of_thinned (thinned_clear role w)
      | write session => exact steady_of_run_write hlinks Prod.mk.eta.symm
      | save =>
          rw [behind, after]
          obtain ⟨w', hrun⟩ := Plan.exists_run_eq (w := w) b (p := s.save role) rfl
          rw [hrun]
          obtain ⟨v, hv, ⟨hw', -⟩ | ⟨session, -, hwrite⟩⟩ := run_save_cases hrun
          · rw [hw', hv]
            exact .refl _
          · rw [← hv] at hlinks ⊢
            exact steady_of_run_write hlinks hwrite

theorem steady_behindAll (hlinks : NoLinkBeside w.disk) (deeds : List Deed) :
    w.disk.Steady (s.behindAll b w deeds).disk := by
  induction deeds generalizing w with
  | nil => exact .refl _
  | cons deed deeds ih =>
      have hfirst := steady_behind (b := b) (s := s) hlinks deed
      exact hfirst.trans (ih (hlinks.of_steady hfirst))

/-- A file that is there behind several deeds has been there all the time, or one of the deeds has brought it. -/
theorem exists_brings {deeds : List Deed} (hfile : (s.behindAll b w deeds).disk.tree.get? p = some (.file c m)) :
    (∀ before after, deeds = before ++ after → (s.behindAll b w before).disk.tree.get? p = some (.file c m)) ∨
      ∃ before deed after, deeds = before ++ deed :: after ∧ s.Brings b (s.behindAll b w before) deed p c m := by
  induction deeds generalizing w with
  | nil =>
      refine .inl fun before after heq => ?_
      obtain ⟨rfl, -⟩ := List.append_eq_nil_iff.mp heq.symm
      exact hfile
  | cons deed deeds ih =>
      rcases ih hfile with hheld | ⟨before, deed', after, rfl, hbrings⟩
      · by_cases hstart : w.disk.tree.get? p = some (.file c m)
        · refine .inl fun before after heq => ?_
          cases before with
          | nil => exact hstart
          | cons deed' before =>
              obtain ⟨rfl, rfl⟩ := List.cons.inj heq
              exact hheld before after rfl
        · exact .inr ⟨[], deed, deeds, rfl, hstart, hheld [] deeds rfl⟩
      · exact .inr ⟨deed :: before, deed', after, rfl, hbrings⟩

theorem beside_of_remains {role made : String} {content : Option Files.Content}
    (hname : Path.Simple (s.fileName role)) (hlinks : NoLinkBeside w.disk) (hnamed : s.directory ≠ "")
    (hdirect : w.disk.Direct s.directory) (h : s.Brings b w (.interrupted role made content) p c m) :
    ∃ above, s.Beside role true (s.behind b w (.interrupted role made content)).disk above p := by
  obtain ⟨hbefore, hbehind⟩ := h
  rw [behind, World.withDisk] at hbehind ⊢
  obtain ⟨d, hgrown, hrest⟩ := s.remains_cases w.disk w.wall role made content
  have hsteady := Disk.Steady.of_grown hgrown
  have hnew : d.tree.get? p ≠ some (.file c m) :=
    fun hd => hbefore ((hgrown.tree.get?_iff p fun _ => Files.Entry.noConfusion).mp hd)
  rcases hrest with heq | ⟨c', hwrite⟩
  · rw [heq] at hbehind
    exact absurd hbehind hnew
  · obtain ⟨above, hhome, hdir, -, hothers⟩ :=
      written_beside hname (hlinks.of_steady hsteady) hnamed (hdirect.of_steady hsteady) hwrite
    refine ⟨above, hhome, hdir, .inr ⟨?_, .inr rfl⟩⟩
    by_contra hp
    exact hnew ((hothers p hp).symm.trans hbehind)

/-- What brings a file writes for a role, and the file stands with the session of the role if its file name has no
slash. -/
theorem beside_of_brings (hlinks : NoLinkBeside w.disk) (hnamed : s.directory ≠ "")
    (hdirect : w.disk.Direct s.directory) {deed : Deed} (h : s.Brings b w deed p c m) :
    ∃ role, deed.writes? = some role ∧
      ('/' ∈ (s.fileName role).toList ∨
        ∃ above, s.Beside role deed.stopped (s.behind b w deed).disk above p) := by
  have hthin : ¬ w.disk.Thinned (s.behind b w deed).disk := fun hthin => h.before (hthin.tree.get? h.behind)
  cases deed with
  | pause ms => exact absurd (.refl _) hthin
  | cleanup maxAge now => exact absurd (thinned_cleanup maxAge now w) hthin
  | interrupted role made content =>
      refine ⟨role, rfl, or_iff_not_imp_left.mpr fun hslash => ?_⟩
      exact beside_of_remains (simple_fileName hslash) hlinks hnamed hdirect h
  | change role change =>
      obtain ⟨hbefore, hbehind⟩ := h
      cases change with
      | clear => exact absurd (thinned_clear role w) hthin
      | write session =>
          refine ⟨role, rfl, or_iff_not_imp_left.mpr fun hslash => ?_⟩
          rw [behind, after] at hbehind ⊢
          obtain ⟨w', hrun⟩ := Plan.exists_run_eq (w := w) b (p := s.write role session) rfl
          rw [hrun] at hbehind ⊢
          exact beside_of_run_write (simple_fileName hslash) hlinks hnamed hdirect hrun hbefore hbehind
      | save =>
          refine ⟨role, rfl, or_iff_not_imp_left.mpr fun hslash => ?_⟩
          rw [behind, after] at hthin hbehind ⊢
          obtain ⟨w', hrun⟩ := Plan.exists_run_eq (w := w) b (p := s.save role) rfl
          rw [hrun] at hthin hbehind ⊢
          obtain ⟨v, hv, ⟨hw', -⟩ | ⟨session, -, hwrite⟩⟩ := run_save_cases hrun
          · rw [hw', hv] at hthin
            exact absurd (.refl _) hthin
          · rw [← hv] at hlinks hdirect hbefore
            exact beside_of_run_write (simple_fileName hslash) hlinks hnamed hdirect hwrite hbefore hbehind

end

/-- **What is left when all is cleared.**  The directory has a name, its path leads through no link, and no link has
the name of a file that a session is first written to.  If sessions have been written, saved, cleared and cleaned up,
also by writes that the system has stopped, and all are cleared then without a failure, a file that is left has been
there all the time; or it has been brought by a deed that writes for a role, and clearing does not see it: the file
name of the role has a slash, so that the file need not stand in the directory, or it is the ending alone, which is no
extension, or the file is the one that a write which has been stopped leaves beside the session. -/
theorem left_of_clear {s : Store} (hnamed : s.directory ≠ "") {σ : Type} {b : PageBehaviour σ} {w : World σ}
    (hdirect : w.disk.Direct s.directory) (hlinks : NoLinkBeside w.disk) (deeds : List Deed)
    (hall : ∀ e ∈ (s.clear none).trace b (s.behindAll b w deeds), e.failedRemoval = false) {p : Place}
    {c : Files.Content} {m : Int}
    (hleft : ((s.clear none).run b (s.behindAll b w deeds)).2.disk.tree.get? p = some (.file c m)) :
    (∀ before after, deeds = before ++ after → (s.behindAll b w before).disk.tree.get? p = some (.file c m)) ∨
      ∃ before deed after role, deeds = before ++ deed :: after ∧ deed.writes? = some role ∧
        s.Brings b (s.behindAll b w before) deed p c m ∧
        (('/' ∈ (s.fileName role).toList ∧ ∀ names, (s.behindAll b w deeds).disk.names s.directory = .ok names →
            ∀ name, Path.Simple name → Path.hasExtension name "json" = true →
              p ≠ Files.goal w.disk.working s.directory ++ [name]) ∨
          s.fileName role = ending ∧ p = Files.goal w.disk.working s.directory ++ [ending] ∨
          (s.fileName role = ending ∨ deed.stopped = true) ∧
            p = Files.goal w.disk.working s.directory ++ [temporary (s.fileName role)]) := by
  have hall' := steady_behindAll (b := b) (s := s) hlinks deeds
  have hfile := (removed_of_clear hall).1.tree.get? hleft
  -- What is left stood there before all was cleared: from the start, or since one of the deeds.
  rcases exists_brings hfile with hheld | ⟨before, deed, after, hdeeds, hbrings⟩
  · exact .inl hheld
  have hbefore := steady_behindAll (b := b) (s := s) hlinks before
  have hlinks' := hlinks.of_steady hbefore
  have hdirect' := hdirect.of_steady hbefore
  obtain ⟨role, hrole, hplace⟩ := beside_of_brings hlinks' hnamed hdirect' hbrings
  refine .inr ⟨before, deed, after, role, hdeeds, hrole, hbrings, ?_⟩
  by_cases hslash : '/' ∈ (s.fileName role).toList
  · refine .inl ⟨hslash, fun names hnames name hname hext hp => ?_⟩
    obtain ⟨above, -, -, hhome, -⟩ := Disk.names_eq_ok hnames
    have habove := Disk.home_of_direct (hdirect.of_steady hall') hhome
    rw [hall'.working] at habove
    obtain ⟨-, hnone⟩ := none_left_of_clear hall hnames hhome hname hext
    rw [habove, ← hp, hleft] at hnone
    cases hnone
  · obtain ⟨above, hhome, hdir, hplace⟩ := hplace.resolve_left hslash
    have hdeed := steady_behind (b := b) (s := s) hlinks' deed
    have hafter := steady_behindAll (b := b) (s := s) (hlinks'.of_steady hdeed) after
    have hlater : s.behindAll b w deeds = s.behindAll b (s.behind b (s.behindAll b w before) deed) after := by
      rw [hdeeds, behindAll_append]
      rfl
    rw [← hlater] at hafter
    obtain ⟨hhome', -, hnames⟩ := Disk.names_of_steady hnamed (hdirect'.of_steady hdeed) hhome hdir hafter
    have habove := Disk.home_of_direct (hdirect.of_steady hall') hhome'
    rw [hall'.working] at habove
    rw [← habove]
    by_cases hending : s.fileName role = ending
    · rcases hplace with hp | ⟨hp, -⟩
      · exact .inr (.inl ⟨hending, hending ▸ hp⟩)
      · exact .inr (.inr ⟨.inl hending, hp⟩)
    · obtain ⟨hno, hnone⟩ :=
        none_left_of_clear hall hnames hhome' (simple_fileName hslash) (hasExtension_fileName hending)
      rcases hplace with rfl | ⟨rfl, hdirectory | hstopped⟩
      · cases hleft.symm.trans hnone
      · exact absurd (hafter.tree.directories _ hdirectory) hno
      · exact .inr (.inr ⟨.inr hstopped, rfl⟩)

/-- A world with the session of one role and a file beside the directory. -/
def lobby : World Unit where
  page := ()
  disk.tree :=
    [([".auth-states"], .directory 0), ([".auth-states", "viewer.json"], .file (.text (StoredSession.written {})) 0),
      (["notes.txt"], .file (.text "") 0)]

/-- One role is cleared and another one written, the directory is cleaned up, and then a write is stopped half-way. -/
def chores : List Deed :=
  [.change "viewer" .clear, .change "admin" (.write {}), .pause 5, .cleanup 60000 5,
    .interrupted "accountant" ".auth-states" (some (.text "\x7b"))]

theorem names_chores : (shelfStore.behindAll Manager.homePage lobby chores).disk.names shelfStore.directory =
    .ok ["accountant.json.tmp", "admin.json"] := by
  have hdisk : (shelfStore.behindAll Manager.homePage lobby chores).disk =
      { tree :=
          [([".auth-states", "accountant.json.tmp"], .file (.text "\x7b") 5),
            ([".auth-states", "admin.json"], .file (.text (StoredSession.written {})) 0),
            ([".auth-states"], .directory 0), (["notes.txt"], .file (.text "") 0)]
        touched :=
          [([".auth-states"], 5), ([".auth-states"], 0), ([".auth-states"], 0), ([".auth-states"], 0),
            ([".auth-states"], 0)] } := by
    decide +kernel
  rw [hdisk]
  exact congrArg Except.ok (List.mergeSort_of_pairwise (by decide +kernel))

/-- When all is cleared behind that, what is left beside the directory has been there all the time, and what is left in
it comes from the write that has been stopped. -/
theorem left_of_clear_lobby :
    (shelfStore.directory ≠ "" ∧ lobby.disk.Direct shelfStore.directory ∧ NoLinkBeside lobby.disk ∧
        (∀ e ∈ (shelfStore.clear none).trace Manager.homePage (shelfStore.behindAll Manager.homePage lobby chores),
          e.failedRemoval = false) ∧
        ((shelfStore.clear none).run Manager.homePage
          (shelfStore.behindAll Manager.homePage lobby chores)).2.disk.tree.get? ["notes.txt"] =
            some (.file (.text "") 0) ∧
        ((shelfStore.clear none).run Manager.homePage
          (shelfStore.behindAll Manager.homePage lobby chores)).2.disk.tree.get?
            [".auth-states", "accountant.json.tmp"] = some (.file (.text "\x7b") 5)) ∧
      (∀ before after, chores = before ++ after →
        (shelfStore.behindAll Manager.homePage lobby before).disk.tree.get? ["notes.txt"] =
          some (.file (.text "") 0)) ∧
      ∃ before deed after role, chores = before ++ deed :: after ∧ deed.writes? = some role ∧ deed.stopped = true ∧
        [".auth-states", "accountant.json.tmp"] =
          Files.goal lobby.disk.working shelfStore.directory ++ [temporary (shelfStore.fileName role)] := by
  have hfree : lobby.disk.tree.LinkFree := by
    refine Tree.linkFree_of_forall fun e he target => ?_
    simp only [lobby, List.mem_cons, List.not_mem_nil, or_false] at he
    rcases he with rfl | rfl | rfl <;> exact Files.Entry.noConfusion
  have hnamed : shelfStore.directory ≠ "" := by decide
  have hdirect : lobby.disk.Direct shelfStore.directory := fun init _ target => hfree _ target
  have hlinks : NoLinkBeside lobby.disk := fun name _ p target _ => hfree p target
  have hall : ∀ e ∈ (shelfStore.clear none).trace Manager.homePage
      (shelfStore.behindAll Manager.homePage lobby chores), e.failedRemoval = false := by
    rw [failedRemoval_clear_all names_chores]
    decide +kernel
  have hfiles :
      ((shelfStore.clear none).run Manager.homePage
        (shelfStore.behindAll Manager.homePage lobby chores)).2.disk.tree.get? ["notes.txt"] =
          some (.file (.text "") 0) ∧
      ((shelfStore.clear none).run Manager.homePage
        (shelfStore.behindAll Manager.homePage lobby chores)).2.disk.tree.get?
          [".auth-states", "accountant.json.tmp"] = some (.file (.text "\x7b") 5) := by
    rw [disk_run_clear_all names_chores]
    decide +kernel
  obtain ⟨hnotes, hleft⟩ := hfiles
  have hnames : ∀ deed ∈ chores, ∀ role, deed.writes? = some role →
      '/' ∉ (shelfStore.fileName role).toList ∧ shelfStore.fileName role ≠ ending := by
    intro deed hdeed role hrole
    simp only [chores, List.mem_cons, List.not_mem_nil, or_false] at hdeed
    rcases hdeed with rfl | rfl | rfl | rfl | rfl <;> cases hrole <;> decide +kernel
  refine ⟨⟨hnamed, hdirect, hlinks, hall, hnotes, hleft⟩, ?_, ?_⟩
  · refine (left_of_clear hnamed hdirect hlinks chores hall hnotes).resolve_right ?_
    rintro ⟨before, deed, after, role, hchores, hrole, -, hwhere⟩
    obtain ⟨hslash, hending⟩ := hnames deed (hchores ▸ List.mem_append_right _ List.mem_cons_self) role hrole
    rcases hwhere with ⟨hwhere, -⟩ | ⟨hwhere, -⟩ | ⟨-, hwhere⟩
    · exact hslash hwhere
    · exact hending hwhere
    · have hgoal : Files.goal lobby.disk.working shelfStore.directory = [".auth-states"] := by decide +kernel
      rw [hgoal] at hwhere
      cases (congrArg List.length hwhere : 1 = 2)
  · rcases left_of_clear hnamed hdirect hlinks chores hall hleft with hheld | hbrought
    · have hstart := hheld [] chores rfl
      have hnone : lobby.disk.tree.get? [".auth-states", "accountant.json.tmp"] = none := by decide +kernel
      cases hnone.symm.trans hstart
    · obtain ⟨before, deed, after, role, hchores, hrole, -, hwhere⟩ := hbrought
      obtain ⟨hslash, hending⟩ := hnames deed (hchores ▸ List.mem_append_right _ List.mem_cons_self) role hrole
      rcases hwhere with ⟨hwhere, -⟩ | ⟨hwhere, -⟩ | ⟨hstopped, hwhere⟩
      · exact absurd hwhere hslash
      · exact absurd hwhere hending
      · exact ⟨before, deed, after, role, hchores, hrole, hstopped.resolve_left hending, hwhere⟩

/-! ### What escapes -/

/-- A file that is left when all is cleared, though no attempt fails and it has not been there at the start. -/
def Escapes (s : Store) (w : World Unit) (deeds : List Deed) (p : Place) : Prop :=
  w.disk.tree.get? p = none ∧
    (∀ e ∈ (s.clear none).trace Manager.homePage (s.behindAll Manager.homePage w deeds), e.failedRemoval = false) ∧
    ∃ m, ((s.clear none).run Manager.homePage (s.behindAll Manager.homePage w deeds)).2.disk.tree.get? p =
      some (.file (.text (StoredSession.written {})) m)

/-- A world whose directory holds a link to itself. -/
def loop : World Unit where
  page := ()
  disk.tree := [([".auth-states"], .directory 0), ([".auth-states", "here.json"], .link ".")]

/-- Sessions escape if their file names have a slash or are the ending alone, if they have been written but not moved,
if a link leads out of the directory beside them, if the directory is found through a link that is cleared, and if the
directory has no name. -/
theorem escapes_clear :
    ((formSettings { filePattern := "\x7brole\x7d/state.json" }).check = none ∧
        (Store.mk { filePattern := "\x7brole\x7d/state.json" } none .standard).Escapes { page := () }
          [.change "a" (.write {})] [".auth-states", "a", "state.json"]) ∧
      ((formSettings {}).check = none ∧
        shelfStore.Escapes { page := () } [.change "" (.write {})] [".auth-states", ".json"]) ∧
      shelfStore.Escapes { page := () } [.interrupted "a" ".auth-states" (some (.text (StoredSession.written {})))]
        [".auth-states", "a.json.tmp"] ∧
      shelfStore.Escapes (desk "") [.change "viewer" (.write {})] ["notes.txt"] ∧
      ((formSettings { directory := ".auth-states/here.json" }).check = none ∧
        (Store.mk { directory := ".auth-states/here.json" } none .standard).Escapes loop
          [.change "a" (.write {}), .change "here" .clear] [".auth-states", "a.json"]) ∧
      (formSettings { directory := "" }).check = none ∧
        (Store.mk { directory := "" } none .standard).Escapes { page := () } [.change "a" (.write {})] ["a.json"] := by
  refine ⟨⟨rfl, rfl, ?_, 0, ?_⟩, ⟨rfl, rfl, ?_, 0, ?_⟩, ⟨rfl, ?_, 0, ?_⟩, ⟨rfl, ?_, 0, ?_⟩,
    ⟨rfl, rfl, ?_, 0, ?_⟩, rfl, rfl, ?_, 0, ?_⟩
  all_goals decide +kernel

end Store

end SignOn
