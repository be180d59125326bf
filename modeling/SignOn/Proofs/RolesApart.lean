import SignOn.Proofs.FileNames
import SignOn.Proofs.Sessions

/-! # Sessions of different roles

* `Store.Change` is what is done to the session of a role, `Store.after` the world behind one change, and
  `Store.afterAll` the one behind a run of changes of several roles.
* A change of a role leaves what is stored at the places of other paths (`keepsAt_after`), and so does a run
  (`keepsAt_afterAll`).
* `roles_apart` says which roles share a path, and that changes of roles at other places are of no account to the
  session of a role. -/

namespace SignOn.Store

open Files (Disk Place)

/-! ### Changes -/

/-- What is done to the session of a role. -/
inductive Change where
  | write (session : StoredSession)
  | save
  | clear

section

variable {σ : Type} (b : PageBehaviour σ) (s : Store)

def after (role : String) (w : World σ) : Change → World σ
  | .write session => ((s.write role session).run b w).2
  | .save => ((s.save role).run b w).2
  | .clear => ((s.clear (some role)).run b w).2

/-- The world behind changes of several roles, one after the other. -/
def afterAll (w : World σ) (changes : List (String × Change)) : World σ :=
  changes.foldl (fun w c => s.after b c.1 w c.2) w

theorem linkFree_after (role : String) {w : World σ} (hw : w.disk.tree.LinkFree) (c : Change) :
    (s.after b role w c).disk.tree.LinkFree := by
  cases c with
  | write session =>
      rw [after]
      exact Plan.linkFree_run b (s.write role session) hw
  | save =>
      rw [after]
      exact Plan.linkFree_run b (s.save role) hw
  | clear =>
      rw [after]
      exact Plan.linkFree_run b (s.clear (some role)) hw

theorem linkFree_afterAll {w : World σ} (hw : w.disk.tree.LinkFree) (changes : List (String × Change)) :
    (s.afterAll b w changes).disk.tree.LinkFree := by
  induction changes generalizing w with
  | nil => exact hw
  | cons c changes ih => exact ih (s.linkFree_after b c.1 hw c.2)

/-- Of all that is done to clear the session of a role, one request changes the disk. -/
theorem disk_run_clear (role : String) (w : World σ) :
    ((s.clear (some role)).run b w).2.disk = (World.fileStep (.remove (s.path role)) w).2.disk := by
  rw [clear, clearRole, Plan.bind_eq, Plan.run_file]
  generalize (World.fileStep (.remove (s.path role)) w).1 = r
  refine Plan.Obeys.disk_run (Q := fun _ => True) b ?_ _
  split
  · exact Plan.obeys_ask trivial fun _ => trivial
  · exact trivial
  · exact trivial

end

/-! ### What changes leave -/

section

variable {σ : Type} {b : PageBehaviour σ} {s : Store} {q : Place} {role name : String} {w w' : World σ}
variable (hq : q.getLast? = some name) (hname : IsSessionName name)
variable (hw : w.disk.tree.LinkFree) (hne : q ≠ Files.goal w.disk.working (s.path role))

include hq hname hw hne

/-- A session that is written is put in place by moving a file whose name is none of a session. -/
theorem keepsAt_of_run_write {session : StoredSession} {r : Except StorageError String}
    (h : (s.write role session).run b w = (r, w')) : KeepsAt q w.disk w'.disk := by
  cases r with
  | error e => exact (keepsSessions_of_run_write hw h).at hq hname
  | ok path =>
      obtain ⟨-, -, d, d', hgrown, hwrite, hmove⟩ := of_run_write_ok h
      have hd := hgrown.tree.linkFree hw
      have hkeeps := (KeepsSessions.of_grown hgrown).trans (keepsSessions_of_write hd hwrite)
      obtain ⟨init, _, temp, -, htemp, -, -, hother, hup⟩ := s.exists_names_path role
      have hsource : q ≠ Files.goal d'.working (temporary (s.path role)) := by
        intro h
        have hlast := Files.getLast?_goal htemp hup d'.working
        rw [← h, hq] at hlast
        exact hother (Option.some.inj hlast ▸ hname)
      refine (hkeeps.at hq hname).trans ?_
      refine .of_rename (Disk.linkFree_write hd hwrite) (Disk.hasFile_of_write hd hwrite) hmove hsource ?_
      rw [hkeeps.working]
      exact hne

theorem keepsAt_of_run_save {r : Except StorageError String} (h : (s.save role).run b w = (r, w')) :
    KeepsAt q w.disk w'.disk := by
  obtain ⟨v, hv, ⟨rfl, -⟩ | ⟨session, -, hwrite⟩⟩ := run_save_cases h
  · rw [hv]
    exact .refl q w.disk
  · rw [← hv] at hw hne ⊢
    exact keepsAt_of_run_write hq hname hw hne hwrite

omit hq hname in
theorem keepsAt_of_run_clear {r : Except StorageError Nat}
    (h : (s.clear (some role)).run b w = (r, w')) : KeepsAt q w.disk w'.disk := by
  have hdisk := disk_run_clear b s role w
  rw [h] at hdisk
  rw [hdisk]
  cases hremove : w.disk.remove w.wall (s.path role) with
  | error e =>
      simp only [World.fileStep, hremove]
      exact .refl q w.disk
  | ok d =>
      simp only [World.fileStep, hremove]
      exact .of_remove hw hremove hne

/-- A change of a role leaves a session that is not at the place of the role's path. -/
theorem keepsAt_after (c : Change) : KeepsAt q w.disk (s.after b role w c).disk := by
  cases c with
  | write session =>
      rw [after]
      exact keepsAt_of_run_write hq hname hw hne Prod.mk.eta.symm
  | save =>
      rw [after]
      exact keepsAt_of_run_save hq hname hw hne Prod.mk.eta.symm
  | clear =>
      rw [after]
      exact keepsAt_of_run_clear hw hne Prod.mk.eta.symm

end

/-- A run of changes leaves a session that is at none of the places of their roles' paths. -/
theorem keepsAt_afterAll {σ : Type} {b : PageBehaviour σ} {s : Store} {q : Place} {name : String}
    {w : World σ} (hq : q.getLast? = some name) (hname : IsSessionName name)
    (hw : w.disk.tree.LinkFree) {changes : List (String × Change)}
    (hne : ∀ c ∈ changes, q ≠ Files.goal w.disk.working (s.path c.1)) :
    KeepsAt q w.disk (s.afterAll b w changes).disk := by
  induction changes generalizing w with
  | nil => exact .refl q w.disk
  | cons c changes ih =>
      rw [List.forall_mem_cons] at hne
      have hfirst := keepsAt_after (b := b) hq hname hw hne.1 c.2
      refine hfirst.trans (ih (s.linkFree_after b c.1 hw c.2) fun c' hc' => ?_)
      rw [hfirst.working]
      exact hne.2 c' hc'

/-! ### Roles that are told apart -/

/-- **Roles apart.**  Under a pattern that is accepted two roles share a path in three cases only: their names come to
the same when the places are filled, which takes a role that makes a new place of the environment; one of the names is
the other one with the ending, which the other one lacks; or one of the file names is absolute, and is the path that
the other one has in the directory.  Relative names that do not lead upwards lead to one place if they have the same
parts, and plain names in the first two cases.  Without links, whatever is done to the sessions of roles whose paths
lead to other places, the session of a role stays where it is, and what is found there has been there before. -/
theorem roles_apart {settings : Settings} (hcheck : settings.check = none) (env : Option String) (role : String) :
    (∀ other, other ≠ role →
      let bare := bareName settings.store.filePattern env
      let name := fileNameFor settings.store.filePattern env
      let path := pathFor settings.store env
      (path other = path role ↔ Clash (bare other) (bare role) ∨
        Path.Replaces settings.store.directory (name other) (name role) ∨
        Path.Replaces settings.store.directory (name role) (name other)) ∧
      (bare other = bare role → FillsAtOnce settings.store.filePattern env other →
        ¬ FillsAtOnce settings.store.filePattern env role) ∧
      ((∀ r ∈ [other, role], Path.isAbsolute (name r) = false ∧ ".." ∉ Path.parts (name r)) → ∀ working,
        (Files.goal working (path other) = Files.goal working (path role) ↔
          Path.parts (name other) = Path.parts (name role))) ∧
      (Path.Plain (name other) → Path.Plain (name role) → ∀ working,
        (Files.goal working (path other) = Files.goal working (path role) ↔ Clash (bare other) (bare role)))) ∧
    ∀ (logger : Logger) {σ : Type} (b : PageBehaviour σ) (w : World σ) (changes : List (String × Change)),
      w.disk.tree.LinkFree →
      (∀ c ∈ changes, Files.goal w.disk.working (pathFor settings.store env c.1) ≠
        Files.goal w.disk.working (pathFor settings.store env role)) →
      ∀ c modified,
        (w.disk.HasFile (pathFor settings.store env role) c modified →
          ((Store.mk settings.store env logger).afterAll b w changes).disk.HasFile
            (pathFor settings.store env role) c modified) ∧
        (((Store.mk settings.store env logger).afterAll b w changes).disk.HasFile
            (pathFor settings.store env role) c modified →
          w.disk.tree.get? (Files.goal w.disk.working (pathFor settings.store env role)) =
            some (.file c modified)) := by
  have hpattern := contains_of_checkBy hcheck
  refine ⟨fun other hne => ⟨pathFor_eq_iff, fun hsame hother hrole => ?_, fun hnames working => ?_,
    fun hother hrole working => ?_⟩, ?_⟩
  · exact bareName_ne hpattern hne hother hrole hsame
  · obtain ⟨⟨habsolute, hdown⟩, habsolute', hdown'⟩ := by simpa using hnames
    exact goal_pathFor_eq_iff habsolute habsolute' hdown hdown' working
  · rw [← parts_fileNameFor_eq_iff hother hrole, pathFor, pathFor, hother.goal_join, hrole.goal_join,
      List.append_right_inj, hother.parts_eq, hrole.parts_eq]
  intro logger σ b w changes hw hplaces c modified
  obtain ⟨init, name, temp, hpath, -, hname, hup, -⟩ :=
    exists_names_path ⟨settings.store, env, logger⟩ role
  have hlast := Files.getLast?_goal hpath hup w.disk.working
  have hkeeps := keepsAt_afterAll (b := b) (s := ⟨settings.store, env, logger⟩) hlast hname hw
    fun c hc => (hplaces c hc).symm
  have hfree := linkFree_afterAll b ⟨settings.store, env, logger⟩ hw changes
  exact ⟨hkeeps.hasFile hw hfree, hkeeps.get?_of_hasFile hfree⟩

/-- Settings for a form, with a store of their own. -/
def formSettings (store : StoreSettings) : Settings where
  provider := .form
  form := some { loginUrl := "https://app.example/login" }
  store

/-- A world with the session of one role. -/
def shelf (session : StoredSession) : World Unit where
  page := ()
  disk.tree :=
    [([".auth-states"], .directory 0),
      ([".auth-states", "viewer.json"], .file (.text session.written) 0)]

theorem linkFree_shelf (session : StoredSession) : (shelf session).disk.tree.LinkFree := by
  intro p target h
  by_cases hp : p = []
  · rw [hp] at h
    cases h
  · rw [Files.Tree.get?_of_ne _ hp, shelf, List.lookup_cons] at h
    split at h
    · cases h
    · rw [List.lookup_cons] at h
      split at h <;> cases h

/-- An ending and a place in the name of a role do not take it to the path of another one unless the names clash there;
and whatever is done to the session of one role, the one of another role stays. -/
theorem roles_apart_shelf :
    (formSettings {}).check = none ∧ pathFor {} none "a.json" ≠ pathFor {} none "a" ∧
      pathFor {} none "\x7benv\x7d" ≠ pathFor {} none "b" ∧
      ∀ (logger : Logger) (session : StoredSession) (changes : List Change),
        ((Store.mk {} none logger).afterAll Manager.homePage (shelf session)
          (changes.map ("admin", ·))).disk.HasFile ".auth-states/viewer.json" (.text session.written) 0 := by
  have hcheck : (formSettings {}).check = none := rfl
  have hending := ((roles_apart hcheck none "a").1 "a.json" (by decide)).1
  have hplace := ((roles_apart hcheck none "b").1 "\x7benv\x7d" (by decide)).1
  obtain ⟨hnames, hchanges⟩ := roles_apart hcheck none "viewer"
  obtain ⟨-, -, -, hgoals⟩ := hnames "admin" (by decide)
  refine ⟨hcheck, fun h => ?_, fun h => ?_, fun logger session changes => ?_⟩
  · exact absurd (hending.mp h) (by decide +kernel)
  · exact absurd (hplace.mp h) (by decide +kernel)
  refine (hchanges logger Manager.homePage (shelf session) _ (linkFree_shelf session) ?_ _ 0).1 ⟨_, rfl, rfl⟩
  intro c hc
  obtain ⟨change, -, rfl⟩ := List.mem_map.mp hc
  exact fun h => absurd ((hgoals (by decide) (by decide) _).mp h) (by decide +kernel)

/-- A world in which the session of one role is a link to the one of another. -/
def linkedShelf (session : StoredSession) : World Unit :=
  { shelf session with
    disk.tree := (shelf session).disk.tree.set [".auth-states", "guest.json"] (.link "viewer.json") }

theorem hasFile_linkedShelf (session : StoredSession) :
    (linkedShelf session).disk.HasFile ".auth-states/guest.json" (.text session.written) 0 :=
  ⟨[".auth-states", "viewer.json"], rfl, rfl⟩

theorem not_hasFile_linkedShelf (logger : Logger) (session : StoredSession) (c : Files.Content) (m : Int) :
    ¬ ((Store.mk {} none logger).after Manager.homePage "viewer" (linkedShelf session) .clear).disk.HasFile
      ".auth-states/guest.json" c m := by
  have hpath : (Store.mk {} none logger).path "viewer" = ".auth-states/viewer.json" := by
    have h : pathFor {} none "viewer" = ".auth-states/viewer.json" := by decide
    exact h
  have hremove : (linkedShelf session).disk.remove (linkedShelf session).wall ".auth-states/viewer.json" = .ok
      { tree := [([".auth-states", "guest.json"], .link "viewer.json"), ([".auth-states"], .directory 0)]
        touched := [([".auth-states"], 0)] } := rfl
  rw [after, disk_run_clear, hpath, World.fileStep, hremove]
  rintro ⟨q, hq, hc⟩
  obtain rfl : [".auth-states", "viewer.json"] = q := Except.ok.inj hq
  cases hc

/-- Settings are accepted where roles share a path: by the ending that one of them has already, by the place
that the other one names, or by replacing the directory.  Other roles have different paths to the same place.
Through a link the session of one role is that of the other. -/
theorem roles_share_sessions :
    ((formSettings { filePattern := "\x7brole\x7d" }).check = none ∧
        pathFor { filePattern := "\x7brole\x7d" } none "a" =
          pathFor { filePattern := "\x7brole\x7d" } none "a.json") ∧
      ((formSettings {}).check = none ∧ pathFor {} none "\x7benv\x7d" = pathFor {} none "default") ∧
      ((formSettings { directory := "/s" }).check = none ∧
        pathFor { directory := "/s" } none "/s/a" = pathFor { directory := "/s" } none "a") ∧
      (pathFor {} none "./b" ≠ pathFor {} none "b" ∧ ∀ (d : Disk) follow,
        d.resolve follow (pathFor {} none "./b") = d.resolve follow (pathFor {} none "b")) ∧
      pathFor {} none "guest" ≠ pathFor {} none "viewer" ∧ ∀ logger session,
        (linkedShelf session).disk.HasFile (pathFor {} none "guest") (.text session.written) 0 ∧
          ∀ c m, ¬ ((Store.mk {} none logger).after Manager.homePage "viewer" (linkedShelf session)
            .clear).disk.HasFile (pathFor {} none "guest") c m := by
  have hguest : pathFor {} none "guest" = ".auth-states/guest.json" := by decide +kernel
  have hdotted : pathFor {} none "./b" = ".auth-states/./b.json" := by decide +kernel
  have hplain : pathFor {} none "b" = ".auth-states/b.json" := by decide +kernel
  have hparts : Path.parts ".auth-states/./b.json" = Path.parts ".auth-states/b.json" := by decide +kernel
  have habsolute : Path.isAbsolute ".auth-states/./b.json" = Path.isAbsolute ".auth-states/b.json" := by
    decide +kernel
  refine ⟨⟨rfl, by decide +kernel⟩, ⟨rfl, by decide +kernel⟩, ⟨rfl, by decide +kernel⟩,
    ⟨by decide +kernel, fun d follow => ?_⟩, by decide +kernel, ?_⟩
  · rw [hdotted, hplain, Disk.resolve_eq_walk (by decide +kernel), Disk.resolve_eq_walk (by decide +kernel),
      hparts, habsolute]
  · rw [hguest]
    exact fun logger session => ⟨hasFile_linkedShelf session, not_hasFile_linkedShelf logger session⟩

end SignOn.Store
