import SignOn.Command.Run
import SignOn.Proofs.Directories
import SignOn.Proofs.Removals
import SignOn.Proofs.RolesApart

/-! # Sessions stay in their directory

* A pattern, an environment and a role without slashes make a file name of one part (`simple_fileNameFor`), and
  the file that a session is first written to has such a name, too.
* `run_write_in` is all that a write of such a name does: it makes directories, writes the file beside in the
  home of the directory, and moves it there.  No link may have the name of the file beside, or the text is
  written to where the link leads.
* `stays_in_directory` puts this together for writing and clearing.  A role with a slash leaves the directory
  (`leaves_directory`). -/

namespace SignOn

namespace Text

/-- What stands in a text after a replacement stood in it before, or in what has been put in. -/
theorem mem_replaceFrom {c : Char} {p r : List Char} {skip : Nat} {cs : List Char}
    (h : c ∈ replaceFrom p r skip cs) : c ∈ cs ∨ c ∈ r := by
  induction cs generalizing skip with
  | nil => exact .inl h
  | cons x cs ih =>
      have hmore : ∀ {skip : Nat}, c ∈ replaceFrom p r skip cs → c ∈ x :: cs ∨ c ∈ r := fun h =>
        (ih h).imp_left (List.mem_cons_of_mem x)
      cases skip with
      | succ skip => exact hmore h
      | zero =>
          rw [replaceFrom] at h
          split at h
          · exact (List.mem_append.mp h).elim .inr hmore
          · exact (List.mem_cons.mp h).elim (fun hx => .inl (hx ▸ List.mem_cons_self)) hmore

theorem not_mem_replaceAll {c : Char} {s p r : String} (hs : c ∉ s.toList) (hr : c ∉ r.toList) :
    c ∉ (replaceAll s p r).toList := by
  rw [replaceAll, String.toList_ofList]
  exact fun h => (mem_replaceFrom h).elim hs hr

end Text

theorem Command.disk_run_clear {σ : Type} (b : PageBehaviour σ) (s : Store) (role : Option String) (w : World σ) :
    ((Command.clear s role).run.run b w).2.disk = ((s.clear role).run b w).2.disk := by
  obtain ⟨next, hrun, hnext⟩ : ∃ next : Except StorageError Nat → Plan (Except Failure Unit),
      (Command.clear s role).run = (s.clear role).bind next ∧
        ∀ r v, ((next r).run b v).2.disk = v.disk := by
    refine ⟨_, Plan.bind_assoc _ _ _, fun r v => ?_⟩
    cases r <;> rfl
  rw [hrun, Plan.run_bind, hnext]

namespace Store

open Files (Tree Place Disk)

/-! ### File names without slashes -/

section

variable {pattern role : String} {env : Option String}

theorem not_mem_fileNameFor {c : Char} (hpattern : c ∉ pattern.toList)
    (henv : c ∉ (env.getD defaultEnv).toList) (hrole : c ∉ role.toList) (hending : c ∉ ending.toList) :
    c ∉ (fileNameFor pattern env role).toList := by
  have hbare := Text.not_mem_replaceAll (p := envPlace)
    (Text.not_mem_replaceAll (p := rolePlace) hpattern hrole) henv
  unfold fileNameFor withEnding
  split
  · exact hbare
  · rw [String.toList_append, List.mem_append, not_or]
    exact ⟨hbare, hending⟩

theorem length_fileNameFor : 5 ≤ (fileNameFor pattern env role).length := by
  obtain ⟨x, hx⟩ := exists_toList_withEnding
    (Text.replaceAll (Text.replaceAll pattern rolePlace role) envPlace (env.getD defaultEnv))
  have hlength := congrArg List.length hx
  have hending : ending.toList.length = 5 := by decide
  rw [List.length_append, hending, String.length_toList] at hlength
  exact hlength ▸ Nat.le_add_left 5 x.length

/-- Without slashes a file name has one part. -/
theorem simple_fileNameFor (hpattern : '/' ∉ pattern.toList) (henv : '/' ∉ (env.getD defaultEnv).toList)
    (hrole : '/' ∉ role.toList) : Path.Simple (fileNameFor pattern env role) :=
  .of_length (not_mem_fileNameFor hpattern henv hrole (by decide))
    (Nat.le_trans (by decide) length_fileNameFor)

end

def fileName (s : Store) (role : String) : String :=
  fileNameFor s.settings.filePattern s.env role

theorem path_eq_join (s : Store) (role : String) : s.path role = Path.join s.directory (s.fileName role) := rfl

theorem simple_temporary {name : String} (hname : Path.Simple name) (hlen : 5 ≤ name.length) :
    Path.Simple (temporary name) := by
  have hslash : '/' ∉ (".tmp" : String).toList := by decide
  refine .of_length ?_ ?_
  · rw [temporary, String.toList_append, List.mem_append, not_or]
    exact ⟨hname.whole, hslash⟩
  · rw [temporary, String.length_append]
    omega

section

variable {s : Store} {role : String} (hname : Path.Simple (s.fileName role))

include hname

/-- The file that a session is first written to stands beside the one of the session. -/
theorem temporary_path : temporary (s.path role) = Path.join s.directory (temporary (s.fileName role)) :=
  Path.join_append s.directory hname.plain.not_isAbsolute
    (simple_temporary hname length_fileNameFor).plain.not_isAbsolute

end

/-! ### Writing -/

def NoLinkNamed (d : Disk) (name : String) : Prop :=
  ∀ (p : Place) target, p.getLast? = some name → d.tree.get? p ≠ some (.link target)

theorem NoLinkNamed.of_grown {d d' : Disk} {name : String} (h : NoLinkNamed d name) (hgrown : Disk.Grown d d') :
    NoLinkNamed d' name :=
  fun p target hp hlink => h p target hp ((hgrown.tree.get?_iff p fun _ => Files.Entry.noConfusion).mp hlink)

section

variable {σ : Type} {b : PageBehaviour σ} {s : Store} {role : String} {session : StoredSession}
variable {w w' : World σ} {r : Except StorageError String}
variable (hname : Path.Simple (s.fileName role)) (hlinks : NoLinkNamed w.disk (temporary (s.fileName role)))

include hname hlinks

/-- All that a write does in the directory of the store: the text of the session is written beside the file of
the role and then moved in place, or the write stops before. -/
theorem run_write_in (h : (s.write role session).run b w = (r, w')) :
    ∃ d, Disk.Grown w.disk d ∧
      ((w'.disk = d ∧ ∃ e, r = .error e) ∨
        ∃ above, d.home s.directory = .ok above ∧
          d.tree.AtMostFile (above ++ [temporary (s.fileName role)]) ∧
          ∃ d' written, d' = d.changed (d.tree.set (above ++ [temporary (s.fileName role)])
              (.file (.text session.written) w.wall)) w.wall written ∧
            ((w'.disk = d' ∧ ∃ e, r = .error e) ∨
              (r = .ok (s.path role) ∧ ¬ d'.tree.HasDirectory (above ++ [s.fileName role]) ∧
                d'.resolve false (s.path role) = .ok (above ++ [s.fileName role]) ∧
                ∃ moved, w'.disk = d'.changed ((d'.tree.erase (above ++ [temporary (s.fileName role)])).set
                  (above ++ [s.fileName role]) (.file (.text session.written) w.wall)) w.wall moved))) := by
  have htemp := simple_temporary hname length_fileNameFor
  obtain ⟨-, d, hgrown, hrest⟩ := run_write_cases h
  rw [temporary_path hname] at hrest
  refine ⟨d, hgrown, ?_⟩
  rcases hrest with hstopped | ⟨d', hwrite, hrest⟩
  · exact .inl hstopped
  · obtain ⟨q, hq, hqdir, hd'⟩ := Disk.write_eq_ok hwrite
    obtain ⟨above, hhome, -, hplace⟩ := Disk.resolve_join htemp hq
    have hnolink : ∀ target, d.tree.get? (above ++ [temporary (s.fileName role)]) ≠ some (.link target) :=
      fun target => hlinks.of_grown hgrown _ target List.getLast?_concat
    obtain rfl : q = above ++ [temporary (s.fileName role)] :=
      hplace.resolve_right fun ⟨_, target, hlink⟩ => hnolink target hlink
    have hfile := Files.Tree.atMostFile_of_not hqdir hnolink
    refine .inr ⟨above, hhome, hfile, d', _, hd', ?_⟩
    rcases hrest with hstopped | ⟨hmove, hr⟩
    · exact .inl hstopped
    · obtain ⟨p, e, target, hp, he, htarget, hdir, hmoved⟩ := Disk.rename_eq_ok hmove
      have hhome' : d'.home s.directory = .ok above := by
        subst hd'
        exact Disk.home_of_sameWays (d := d) rfl (hfile.sameWays_set _ _) hhome
      have hin : ∀ {name : String} {q : Place}, Path.Simple name →
          d'.resolve false (Path.join s.directory name) = .ok q → q = above ++ [name] := by
        intro name q hsimple hq
        obtain ⟨above', habove', -, hplace⟩ := Disk.resolve_join hsimple hq
        obtain rfl : above = above' := Except.ok.inj (hhome'.symm.trans habove')
        exact hplace.resolve_right fun h => Bool.false_ne_true h.1
      obtain rfl := hin htemp hp
      obtain rfl := hin hname htarget
      have he' : d'.tree.get? (above ++ [temporary (s.fileName role)]) =
          some (.file (.text session.written) w.wall) := by
        subst hd'
        exact Files.Tree.get?_set_self _ hfile.ne_nil
      obtain rfl := Option.some.inj (he.symm.trans he')
      exact .inr ⟨hr, hdir, htarget, _, hmoved⟩

/-- Apart from the directories that a write makes, it changes the files of its two names in the home of the
directory alone. -/
theorem get?_of_run_write (h : (s.write role session).run b w = (r, w')) :
    ∃ d, Disk.Grown w.disk d ∧ ∀ p, w'.disk.tree.get? p = d.tree.get? p ∨
      d.InHome s.directory (s.fileName role) p ∨ d.InHome s.directory (temporary (s.fileName role)) p := by
  obtain ⟨d, hgrown, ⟨hw', -⟩ | ⟨above, hhome, -, d', written, rfl, ⟨hw', -⟩ | ⟨-, -, -, moved, hw'⟩⟩⟩ :=
    run_write_in hname hlinks h
  · exact ⟨d, hgrown, fun p => .inl (by rw [hw'])⟩
  · refine ⟨d, hgrown, fun p => ?_⟩
    by_cases hp : p = above ++ [temporary (s.fileName role)]
    · exact .inr (.inr ⟨above, hhome, hp⟩)
    · rw [hw']
      exact .inl (Files.Tree.get?_set_of_ne _ hp)
  · refine ⟨d, hgrown, fun p => ?_⟩
    by_cases hp : p = above ++ [temporary (s.fileName role)]
    · exact .inr (.inr ⟨above, hhome, hp⟩)
    · by_cases hp' : p = above ++ [s.fileName role]
      · exact .inr (.inl ⟨above, hhome, hp'⟩)
      · rw [hw']
        left
        rw [Disk.changed_tree, Disk.changed_tree, Files.Tree.get?_set_of_ne _ hp', Files.Tree.get?_erase_of_ne hp,
          Files.Tree.get?_set_of_ne _ hp]

end

/-! ### Clearing -/

section

variable {σ : Type} (b : PageBehaviour σ) {s : Store} {role : String} (w : World σ)

/-- Clearing takes away what stands under the name of the role in the home of the directory, or nothing. -/
theorem get?_of_run_clear (hname : Path.Simple (s.fileName role)) (p : Place) :
    ((s.clear (some role)).run b w).2.disk.tree.get? p = w.disk.tree.get? p ∨
      ((s.clear (some role)).run b w).2.disk.tree.get? p = none ∧
        w.disk.InHome s.directory (s.fileName role) p := by
  rw [disk_run_clear]
  cases hremove : w.disk.remove w.wall (s.path role) with
  | error e =>
      simp only [World.fileStep, hremove]
      exact .inl trivial
  | ok d =>
      simp only [World.fileStep, hremove]
      obtain ⟨q, e, hq, -, rfl⟩ := Disk.remove_eq_ok hremove
      obtain ⟨hq, -⟩ := Disk.entry?_eq_ok.mp hq
      rw [path_eq_join] at hq
      obtain ⟨above, hhome, -, hplace⟩ := Disk.resolve_join hname hq
      obtain rfl := hplace.resolve_right fun h => Bool.false_ne_true h.1
      by_cases hp : p = above ++ [s.fileName role]
      · have hne : p ≠ [] := hp ▸ List.concat_ne_nil _ _
        rw [← hp]
        exact .inr ⟨Files.Tree.get?_erase_self hne, above, hhome, hp⟩
      · exact .inl (Files.Tree.get?_erase_of_ne hp)

end

/-! ### Roles without slashes -/

/-- **Sessions stay in their directory.**  If pattern, environment and role have no slashes, the path of the role
is that of a name in the directory of the store, and it leads there whatever links are on the way to the
directory.  A write makes directories, and all files that it makes, changes or takes away have the name of the
role's file or of the one beside it, in the home of the directory; links must not have the latter name.
Clearing takes away what has the role's name in the home of the directory, from the command line, too. -/
theorem stays_in_directory {s : Store} {role : String} (hpattern : '/' ∉ s.settings.filePattern.toList)
    (henv : '/' ∉ (s.env.getD defaultEnv).toList) (hrole : '/' ∉ role.toList) :
    (s.path role = Path.join s.directory (s.fileName role) ∧ Path.Simple (s.fileName role)) ∧
      (∀ (d : Disk) q, d.resolve false (s.path role) = .ok q → d.InHome s.directory (s.fileName role) q) ∧
      ∀ {σ : Type} (b : PageBehaviour σ) (w : World σ),
        (NoLinkNamed w.disk (temporary (s.fileName role)) → ∀ session, ∃ d, Disk.Grown w.disk d ∧
          ∀ p, ((s.write role session).run b w).2.disk.tree.get? p = d.tree.get? p ∨
            d.InHome s.directory (s.fileName role) p ∨
            d.InHome s.directory (temporary (s.fileName role)) p) ∧
        (∀ p, ((s.clear (some role)).run b w).2.disk.tree.get? p = w.disk.tree.get? p ∨
          ((s.clear (some role)).run b w).2.disk.tree.get? p = none ∧
            w.disk.InHome s.directory (s.fileName role) p) ∧
        ((Command.clear s (some role)).run.run b w).2.disk = ((s.clear (some role)).run b w).2.disk := by
  have hname : Path.Simple (s.fileName role) := simple_fileNameFor hpattern henv hrole
  refine ⟨⟨path_eq_join s role, hname⟩, fun d q hq => ?_, fun b w => ⟨fun hlinks session => ?_, ?_, ?_⟩⟩
  · rw [path_eq_join] at hq
    obtain ⟨above, hhome, -, hplace⟩ := Disk.resolve_join hname hq
    exact ⟨above, hhome, hplace.resolve_right fun h => Bool.false_ne_true h.1⟩
  · exact get?_of_run_write hname hlinks Prod.mk.eta.symm
  · exact get?_of_run_clear b w hname
  · exact Command.disk_run_clear b s (some role) w

/-- Clearing one role leaves the session of another one. -/
theorem stays_in_directory_admin :
    ('/' ∉ ({} : StoreSettings).filePattern.toList ∧ '/' ∉ ((none : Option String).getD defaultEnv).toList ∧
        '/' ∉ "admin".toList ∧ NoLinkNamed (shelf {}).disk "admin.json.tmp") ∧
      (((Store.mk {} none .standard).clear (some "admin")).run Manager.homePage
        (shelf {})).2.disk.tree.get? [".auth-states", "viewer.json"] =
          (shelf {}).disk.tree.get? [".auth-states", "viewer.json"] := by
  have hnames : '/' ∉ ({} : StoreSettings).filePattern.toList ∧
      '/' ∉ ((none : Option String).getD defaultEnv).toList ∧ '/' ∉ "admin".toList := by decide
  have hlinks : NoLinkNamed (shelf {}).disk "admin.json.tmp" := fun p target _ => linkFree_shelf {} p target
  obtain ⟨hpattern, henv, hrole⟩ := hnames
  refine ⟨⟨hpattern, henv, hrole, hlinks⟩, ?_⟩
  have hstays := stays_in_directory (s := Store.mk {} none .standard) hpattern henv hrole
  have hclear := (hstays.2.2 Manager.homePage (shelf {})).2.1 [".auth-states", "viewer.json"]
  refine hclear.resolve_right fun ⟨_, above, _, hplace⟩ => ?_
  have hlast := congrArg List.getLast? hplace
  rw [List.getLast?_concat] at hlast
  exact absurd (Option.some.inj hlast) (by decide)

/-! ### Roles with slashes -/

/-- A world with a file beside the directory of the sessions, and a link out of the directory. -/
def desk (text : String) : World Unit where
  page := ()
  disk.tree :=
    [([".auth-states"], .directory 0), ([".auth-states", "viewer.json.tmp"], .link "../notes.txt"),
      (["package.json"], .file (.text text) 0)]

/-- A role that leads upwards is cleared outside of the directory, and an absolute one replaces the directory.
Where a link has the name of the file beside, a session is written to where the link leads. -/
theorem leaves_directory :
    ('/' ∉ ({} : StoreSettings).filePattern.toList ∧ '/' ∉ ((none : Option String).getD defaultEnv).toList) ∧
      (pathFor {} none "../package" = ".auth-states/../package.json" ∧
        (desk "").disk.InHome "" "package.json" ["package.json"] ∧
        (desk "").disk.tree.get? ["package.json"] = some (.file (.text "") 0) ∧
        (((Store.mk {} none .standard).clear (some "../package")).run Manager.homePage
          (desk "")).2.disk.tree.get? ["package.json"] = none) ∧
      pathFor {} none "/srv/app" = "/srv/app.json" ∧
      (((Store.mk {} none .standard).write "viewer" {}).run Manager.homePage
        (desk "")).2.disk.tree.get? ["notes.txt"] = some (.file (.text (StoredSession.written {})) 0) := by
  have hpath : (Store.mk {} none .standard).path "../package" = ".auth-states/../package.json" := by
    have h : pathFor {} none "../package" = ".auth-states/../package.json" := by decide +kernel
    exact h
  have hremove : (desk "").disk.remove (desk "").wall ".auth-states/../package.json" = .ok
      { tree := [([".auth-states"], .directory 0),
          ([".auth-states", "viewer.json.tmp"], .link "../notes.txt")]
        touched := [([], 0)] } := rfl
  refine ⟨by decide, ⟨hpath, ⟨[], rfl, rfl⟩, rfl, ?_⟩, by decide +kernel, by decide +kernel⟩
  rw [disk_run_clear, hpath, World.fileStep, hremove]
  rfl

end Store

end SignOn
