import SignOn.Proofs.Confinement
import SignOn.Proofs.NameReading
import SignOn.Proofs.RoundTrip

/-! # Listing what has been written

* `mem_run_list` says what is listed: what is known of the files of the directory with the ending.
* A role that has been written has its file among these (`names_of_run_write`), and what is known of that file is
  the role that its name speaks of, the present time, and whether its session can be decoded
  (`run_stored?_of_hasFile`).
* `listed_of_write` puts these together: what is listed is the role itself if its name is `Legible`. -/

namespace SignOn

namespace Files.Tree

variable {t : Tree} {p : Place} {name : String} {e : Entry}

theorem mem_of_get? (hp : p ≠ []) (h : t.get? p = some e) : (p, e) ∈ t := by
  rw [get?_of_ne _ hp] at h
  obtain ⟨before, after, rfl, -⟩ := List.lookup_eq_some_iff.mp h
  simp

theorem mem_names (h : t.get? (p ++ [name]) = some e) : name ∈ t.names p := by
  have hne : p ++ [name] ≠ [] := List.concat_ne_nil name p
  have hmem := mem_of_get? hne h
  rw [names, List.mem_mergeSort, List.mem_filterMap]
  refine ⟨_, List.mem_filter.mpr ⟨hmem, ?_⟩, List.getLast?_concat⟩
  exact decide_eq_true ⟨hne, List.dropLast_concat⟩

end Files.Tree

namespace Path

/-- A name with the ending of sessions has its extension, unless it is the ending alone. -/
theorem hasExtension_of_ending {name : String} {x : List Char} (hname : name.toList = x ++ Store.ending.toList)
    (hx : x ≠ []) : hasExtension name "json" = true := by
  have hsplit : Text.splitAt '.' name.toList = Text.splitAt '.' x ++ [("json" : String).toList] := by
    rw [hname]
    exact Text.splitAt_append_cons '.' x ("json" : String).toList
  have hlength : name ≠ ".." := by
    rintro rfl
    have h := congrArg List.length hname
    rw [List.length_append] at h
    have hdots : ("..".toList).length = 2 := rfl
    have hending : Store.ending.toList.length = 5 := by decide
    omega
  rw [hasExtension, hsplit, List.reverse_append]
  cases hrest : (Text.splitAt '.' x).reverse with
  | nil => exact absurd (List.reverse_eq_nil_iff.mp hrest) (Text.splitAt_ne_nil '.' x)
  | cons before rest =>
      have hfront : ¬ (before = [] ∧ rest = []) := by
        rintro ⟨rfl, rfl⟩
        have hone : Text.splitAt '.' x = [[]] := List.reverse_eq_iff.mp hrest
        have hchars := Text.intercalate_splitAt '.' x
        rw [hone] at hchars
        exact hx hchars.symm
      simpa [hlength] using Decidable.not_and_iff_not_or_not.mp hfront

theorem fileName?_of_getLast? {p name : String} (h : (parts p).getLast? = some name) (hup : name ≠ "..") :
    fileName? p = some name := by
  rw [fileName?, h]
  split
  · next heq => exact absurd (Option.some.inj heq) hup
  · next heq => exact heq.symm
  · next heq => cases heq

theorem Simple.fileName?_eq {name : String} (h : Simple name) : fileName? name = some name :=
  fileName?_of_getLast? (by rw [h.parts_eq]; rfl) h.ne_up

theorem Simple.fileName?_join {name : String} (h : Simple name) (directory : String) :
    fileName? (join directory name) = some name :=
  fileName?_of_getLast? (by rw [h.parts_join, List.getLast?_concat]) h.ne_up

end Path

namespace Store

open Files (Disk Place)

/-! ### What is listed -/

section

variable (s : Store)

theorem obeys_stored? (now : Int) (path : String) :
    (s.stored? now path).Obeys Request.LooksAtFiles fun _ => True := by
  unfold stored?
  split
  · exact trivial
  · refine Plan.obeys_ask trivial fun r => ?_
    split
    · exact trivial
    · exact (s.obeys_isPathValidAt path now).bind fun _ _ => trivial

variable {σ : Type} (b : PageBehaviour σ) (w : World σ)

theorem run_storedAmong (now : Int) (paths : List String) :
    ((s.storedAmong now paths).run b w).1 = paths.flatMap fun path => ((s.stored? now path).run b w).1.toList := by
  induction paths with
  | nil => rfl
  | cons path paths ih =>
      have halike := (looks_of_obeys (s.obeys_stored? now path)).alike_run b w
      have hrest := (Plan.run_of_alike b (s.storedAmong now paths) halike).1
      rw [storedAmong, Plan.bind_eq, Plan.run_bind, Plan.bind_eq, Plan.run_bind, hrest, ih, List.flatMap_cons]
      rfl

theorem run_list : ((s.list).run b w).1 =
    match w.disk.names s.directory with
    | .error _ => []
    | .ok names =>
      (((List.filter (Path.hasExtension · "json") names).map (Path.join s.directory)).flatMap fun path =>
        ((s.stored? w.wall path).run b w).1.toList).mergeSort fun a b => !decide (b.role < a.role) := by
  rw [list, Plan.bind_eq, Plan.run_wallClock, Plan.bind_eq]
  cases hnames : w.disk.names s.directory with
  | error e =>
      rw [Plan.run_bind_of_eq b (run_files_of_error b s w hnames)]
      rfl
  | ok names =>
      rw [Plan.run_bind_of_eq b (run_files_of_ok b s w hnames)]
      dsimp only
      rw [← run_storedAmong, Plan.bind_eq, Plan.run_bind]
      rfl

variable {s b w}

/-- What is listed is what is known of the files of the directory with the ending. -/
theorem mem_run_list {e : Stored} : e ∈ ((s.list).run b w).1 ↔
    ∃ names, w.disk.names s.directory = .ok names ∧ ∃ name ∈ names, Path.hasExtension name "json" = true ∧
      ((s.stored? w.wall (Path.join s.directory name)).run b w).1 = some e := by
  rw [run_list]
  cases w.disk.names s.directory with
  | error f => simp
  | ok names =>
      simp only [List.mem_mergeSort, List.mem_flatMap, List.mem_map, List.mem_filter, Option.mem_toList]
      constructor
      · rintro ⟨_, ⟨name, ⟨hname, hext⟩, rfl⟩, he⟩
        exact ⟨names, rfl, name, hname, hext, he⟩
      · rintro ⟨_, hnames, name, hname, hext, he⟩
        obtain rfl := Except.ok.inj hnames
        exact ⟨_, ⟨name, ⟨hname, hext⟩, rfl⟩, he⟩

theorem path_of_run_stored? {now : Int} {path : String} {e : Stored}
    (h : ((s.stored? now path).run b w).1 = some e) : e.path = path := by
  rw [stored?] at h
  split at h
  · cases h
  · rw [Plan.bind_eq, Plan.run_file] at h
    split at h
    · cases h
    · rw [Plan.bind_eq, Plan.run_bind] at h
      obtain rfl := Option.some.inj h
      rfl

/-- What is known of a file that has been written at the present time: the role that its name speaks of, and that
it is valid if its session can be decoded. -/
theorem run_stored?_of_hasFile {path : String} {c : Files.Content} (hfile : w.disk.HasFile path c w.wall) :
    ((s.stored? w.wall path).run b w).1 = (roleOf? path s.settings.filePattern).map fun role =>
      { role, createdAt := w.wall, path
        isValid := (Json.decodeReading StoredSession.decoder (Json.readSymbols c.symbols)).isOk } := by
  rw [stored?]
  cases roleOf? path s.settings.filePattern with
  | none => rfl
  | some role =>
      dsimp only
      rw [Plan.bind_eq, Plan.run_file, World.fileStep, hfile.modified]
      dsimp only
      rw [Plan.bind_eq, Plan.run_bind, s.isPathValidAt_of_hasFile hfile]
      rfl

end

/-! ### What has been written -/

section

variable {σ : Type} {b : PageBehaviour σ} {s : Store} {role path : String} {session : StoredSession}
variable {w w' : World σ} (hname : Path.Simple (s.fileName role)) (hdir : s.directory ≠ "")
variable (hlinks : NoLinkNamed w.disk (temporary (s.fileName role)))
variable (hlinks' : NoLinkNamed w.disk (s.fileName role))

include hname hdir hlinks hlinks'

/-- A session that has been written stands at its path, under the present time, and its file is one of the
directory. -/
theorem names_of_run_write (h : (s.write role session).run b w = (.ok path, w')) :
    w'.disk.HasFile (s.path role) (.text session.written) w'.wall ∧
      ∃ names, w'.disk.names s.directory = .ok names ∧ s.fileName role ∈ names := by
  have hwall : w'.wall = w.wall := (run_write_cases h).1
  obtain ⟨d, hgrown, ⟨-, e, he⟩ | ⟨above, hhome, hbeside, d', written, hd', hrest⟩⟩ :=
    run_write_in hname hlinks h
  · cases he
  rcases hrest with ⟨-, e, he⟩ | ⟨-, hnodir, hplace, moved, hw'⟩
  · cases he
  · have hways : d.tree.SameWays d'.tree := by
      subst hd'
      exact hbeside.sameWays_set _ _
    have hworking : d'.working = d.working := by rw [hd', Disk.changed_working]
    have hnolink : ∀ target, d'.tree.get? (above ++ [s.fileName role]) ≠ some (.link target) := by
      intro target hlink
      rcases hways (above ++ [s.fileName role]) with hsame | ⟨-, hfile⟩
      · rw [hsame] at hlink
        exact hlinks'.of_grown hgrown _ target List.getLast?_concat hlink
      · obtain ⟨c, m, hc⟩ := hfile _ hlink
        cases hc
    have herase := (hways.atMostFile hbeside).sameWays_erase
    have hfile := herase.atMostFile (Files.Tree.atMostFile_of_not hnodir hnolink)
    have hmove : d'.tree.SameWays w'.disk.tree := by
      rw [hw']
      exact herase.trans (hfile.sameWays_set _ _)
    have hworking' : w'.disk.working = d'.working := by rw [hw', Disk.changed_working]
    have hentry : w'.disk.tree.get? (above ++ [s.fileName role]) =
        some (.file (.text session.written) w'.wall) := by
      rw [hw', hwall]
      exact Files.Tree.get?_set_self _ hfile.ne_nil
    have hresolve : w'.disk.resolve true (s.path role) = .ok (above ++ [s.fileName role]) := by
      refine Disk.resolve_follow (Disk.resolve_of_sameWays hworking' hmove hplace) fun target hlink => ?_
      rw [hentry] at hlink
      cases hlink
    have hhome' := Disk.home_of_sameWays hworking' hmove (Disk.home_of_sameWays hworking hways hhome)
    have hdirectory : w'.disk.tree.HasDirectory above := by
      have hjoin := hresolve
      rw [path_eq_join] at hjoin
      obtain ⟨above', habove', hlook, -⟩ := Disk.resolve_join hname hjoin
      obtain rfl : above = above' := Except.ok.inj (hhome'.symm.trans habove')
      exact hlook.directory
    obtain ⟨m, hm⟩ := hdirectory
    rw [Disk.home, if_neg hdir] at hhome'
    have hnames : w'.disk.names s.directory = .ok (w'.disk.tree.names above) := by
      rw [Disk.names, Disk.entry?_eq_ok.mpr ⟨hhome', hm⟩]
    exact ⟨⟨_, hresolve, hentry⟩, _, hnames, Files.Tree.mem_names hentry⟩

end

theorem fileName?_path {s : Store} {role : String} (hname : Path.Simple (s.fileName role)) :
    Path.fileName? (s.path role) = some (s.fileName role) := by
  rw [path_eq_join, hname.fileName?_join]

/-- **What is listed of a role that has been written.**  If the file name of the role has no slash and is not the
ending alone, no link has this name or the one of the file beside, and the directory is named, the file of the
role is listed under the role that its name speaks of, if it speaks of one, and is valid if its session can be
decoded.  If the name is legible, this is the role that has been written. -/
theorem listed_of_write {s : Store} {role : String} {session : StoredSession}
    (hslash : '/' ∉ (s.fileName role).toList) (hending : s.fileName role ≠ ending) (hdir : s.directory ≠ "")
    {σ : Type} {b : PageBehaviour σ} {w w' : World σ}
    (hlinks : NoLinkNamed w.disk (temporary (s.fileName role))) (hlinks' : NoLinkNamed w.disk (s.fileName role))
    {path : String} (h : (s.write role session).run b w = (.ok path, w')) :
    path = s.path role ∧ w'.wall = w.wall ∧
      (∀ e : Stored, e ∈ ((s.list).run b w').1 ∧ e.path = path ↔
        roleOf? path s.settings.filePattern = some e.role ∧ e.createdAt = w'.wall ∧ e.path = path ∧
          e.isValid = (Json.decodeReading StoredSession.decoder
            (Json.readSymbols (Text.symbols session.written))).isOk) ∧
      (Legible s.settings.filePattern s.env role → session.Exportable →
        { role, createdAt := w'.wall, path, isValid := true } ∈ ((s.list).run b w').1) := by
  have hname : Path.Simple (s.fileName role) :=
    .of_length hslash (Nat.le_trans (by decide) length_fileNameFor)
  obtain ⟨hpath, hwall, -⟩ := of_run_write_ok h
  obtain ⟨hfile, names, hnames, hmem⟩ := names_of_run_write hname hdir hlinks hlinks' h
  have hstored := run_stored?_of_hasFile (s := s) (b := b) hfile
  have hsymbols : (Files.Content.text session.written).symbols = Text.symbols session.written := rfl
  rw [← hpath, hsymbols] at hstored
  have hext : Path.hasExtension (s.fileName role) "json" = true := by
    obtain ⟨x, hx⟩ := exists_toList_withEnding (bareName s.settings.filePattern s.env role)
    apply Path.hasExtension_of_ending hx
    rintro rfl
    rw [List.nil_append] at hx
    exact hending (String.toList_inj.mp hx)
  have hlisted : ∀ e : Stored, e ∈ ((s.list).run b w').1 ∧ e.path = path ↔
      ((s.stored? w'.wall path).run b w').1 = some e := by
    intro e
    constructor
    · rintro ⟨he, heq⟩
      obtain ⟨_, -, name, -, -, hsome⟩ := mem_run_list.mp he
      rwa [← path_of_run_stored? hsome, heq] at hsome
    · intro hsome
      refine ⟨mem_run_list.mpr ⟨names, hnames, s.fileName role, hmem, hext, ?_⟩, path_of_run_stored? hsome⟩
      rw [← path_eq_join, ← hpath, hsome]
  refine ⟨hpath, hwall, fun e => ?_, fun hlegible hs => ?_⟩
  · rw [hlisted, hstored, Option.map_eq_some_iff]
    constructor
    · rintro ⟨role', hrole', rfl⟩
      refine ⟨hrole', rfl, rfl, ?_⟩
      dsimp only
    · rintro ⟨hrole', hcreated, hplace, hvalid⟩
      exact ⟨e.role, hrole', by rw [← hcreated, ← hplace, ← hvalid]⟩
  · refine ((hlisted _).mpr ?_).1
    have hrole : roleOf? path s.settings.filePattern = some role := by
      apply roleOf?_of_legible hlegible
      rw [hpath]
      exact fileName?_path hname
    rw [hstored, hrole, hs.decode_written]
    rfl

/-- A store that keeps role and environment apart by a dash. -/
def stagingStore : Store where
  settings := { filePattern := "\x7brole\x7d-\x7benv\x7d.json" }
  env := some "staging"
  logger := .standard

/-- A role without a dash is listed there. -/
theorem listed_of_write_staging :
    ('/' ∉ (stagingStore.fileName "admin").toList ∧ stagingStore.fileName "admin" ≠ ending ∧
        stagingStore.directory ≠ "" ∧ NoLinkNamed (shelf {}).disk (temporary (stagingStore.fileName "admin")) ∧
        NoLinkNamed (shelf {}).disk (stagingStore.fileName "admin")) ∧
      Legible stagingStore.settings.filePattern stagingStore.env "admin" ∧
      ∃ w', (stagingStore.write "admin" packed).run Manager.homePage (shelf {}) =
          (.ok ".auth-states/admin-staging.json", w') ∧
        { role := "admin", createdAt := 0, path := ".auth-states/admin-staging.json", isValid := true } ∈
          ((stagingStore.list).run Manager.homePage w').1 := by
  have hnames : '/' ∉ (stagingStore.fileName "admin").toList ∧ stagingStore.fileName "admin" ≠ ending ∧
      stagingStore.directory ≠ "" := by decide +kernel
  obtain ⟨hslash, hending, hdir⟩ := hnames
  have hlinks : ∀ name, NoLinkNamed (shelf {}).disk name := fun _ p target _ => linkFree_shelf {} p target
  have hlegible : Legible stagingStore.settings.filePattern stagingStore.env "admin" :=
    { once := by decide +kernel
      ending := .inl (by decide +kernel)
      roleFills := by decide
      envFills := fun _ => by decide
      apart := by decide +kernel }
  have hok : ((stagingStore.write "admin" packed).run Manager.homePage (shelf {})).1 =
      .ok ".auth-states/admin-staging.json" := rfl
  obtain ⟨w', hrun⟩ := Plan.exists_run_eq Manager.homePage hok
  refine ⟨⟨hslash, hending, hdir, hlinks _, hlinks _⟩, hlegible, w', hrun, ?_⟩
  obtain ⟨-, hwall, -, hlisted⟩ := listed_of_write hslash hending hdir (hlinks _) (hlinks _) hrun
  have hnow : w'.wall = 0 := hwall
  have hentry := hlisted hlegible exportable_packed
  rwa [hnow] at hentry

/-- A role with a dash is listed as another one: the shortest text that can stand for the role ends at its dash,
and the rest counts as the environment. -/
theorem listed_as_other :
    (formSettings stagingStore.settings).check = none ∧
      ∃ w', (stagingStore.write "qa-admin" {}).run Manager.homePage { page := () } =
          (.ok ".auth-states/qa-admin-staging.json", w') ∧
        ((stagingStore.list).run Manager.homePage w').1 =
          [{ role := "qa", createdAt := 0, path := ".auth-states/qa-admin-staging.json", isValid := true }] := by
  have hrun : ((stagingStore.write "qa-admin" {}).run Manager.homePage { page := () }).1 =
      .ok ".auth-states/qa-admin-staging.json" := rfl
  exact ⟨rfl, _, Prod.ext hrun rfl, by decide +kernel⟩

end Store

end SignOn
