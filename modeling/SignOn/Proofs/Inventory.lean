import SignOn.Proofs.Observers
import SignOn.Proofs.Sweeps

/-! # The list of stored sessions

* `Store.listAt` is the list as of a time.  The clock is looked at once, before any file is (`list_eq`).
* `Store.Describes` is what is said of a file of the directory: its role is the one that its name speaks of, and
  whether it is valid is a matter of that time.  A file is left out if its name speaks of no role, or if its time
  cannot be told (`run_stored?_eq_some_iff`).
* `Store.Inventory` is what a list has to be, and `list_spec` says that every list is one. -/

namespace SignOn.Store

open Files (Disk Place)

/-! ### The list as of a time -/

/-- The stored sessions of the directory as of a time. -/
def listAt (s : Store) (now : Int) : Plan (List Stored) := do
  match ← s.files with
  | .error _ => return []
  | .ok files =>
    return (← s.storedAmong now files).mergeSort fun a b => !decide (b.role < a.role)

theorem list_eq (s : Store) : s.list = Plan.wallClock >>= s.listAt := rfl

section

variable {σ : Type} {b : PageBehaviour σ} {s : Store} {w : World σ} {now : Int} {name : String}

/-- What is known of the files with the extension, under their names. -/
def known (b : PageBehaviour σ) (s : Store) (w : World σ) (now : Int) (names : List String) : List (String × Stored) :=
  (names.filter (Path.hasExtension · "json")).filterMap fun name =>
    ((s.stored? now (Path.join s.directory name)).run b w).1.map (name, ·)

theorem run_listAt_of_error {e : FileError} (h : w.disk.names s.directory = .error e) :
    ((s.listAt now).run b w).1 = [] := by
  rw [listAt, Plan.bind_eq, Plan.run_bind_of_eq b (run_files_of_error b s w h)]
  rfl

theorem run_listAt_of_ok {names : List String} (h : w.disk.names s.directory = .ok names) :
    ((s.listAt now).run b w).1 = ((known b s w now names).map Prod.snd).mergeSort (keyOrder Stored.role) := by
  have hsnd : (known b s w now names).map Prod.snd =
      ((s.storedAmong now ((names.filter (Path.hasExtension · "json")).map (Path.join s.directory))).run b w).1 := by
    rw [run_storedAmong, List.flatMap_map, known, List.map_filterMap]
    simp [← List.filterMap_eq_flatMap_toList]
  rw [hsnd, listAt, Plan.bind_eq, Plan.run_bind_of_eq b (run_files_of_ok b s w h)]
  dsimp only
  rw [Plan.bind_eq, Plan.run_bind]
  rfl

/-! ### What is said of a file -/

/-- A session can be decoded from what a file holds. -/
def HoldsSession (d : Disk) (path : String) : Prop :=
  ∃ c session, d.read path = .ok c ∧
    Json.decodeReading StoredSession.decoder (Json.readSymbols c.symbols) = .ok session

/-- What is said of a file of the directory as of a time.  Its role is read off its own name, and it is valid if it is
not too old and what it holds can be decoded. -/
structure Describes (s : Store) (d : Disk) (now : Int) (name : String) (e : Stored) : Prop where
  path : e.path = Path.join s.directory name
  role : roleOf? name s.settings.filePattern = some e.role
  createdAt : d.modified e.path = .ok e.createdAt
  isValid : e.isValid = true ↔ age e.createdAt now ≤ s.maxAge * 1000 ∧ HoldsSession d e.path

theorem roleOf?_join (hname : Path.Simple name) (directory pattern : String) :
    roleOf? (Path.join directory name) pattern = roleOf? name pattern := by
  rw [roleOf?, roleOf?, hname.fileName?_join, hname.fileName?_eq]

theorem run_stored?_eq_some_iff (hname : Path.Simple name) {e : Stored} :
    ((s.stored? now (Path.join s.directory name)).run b w).1 = some e ↔ Describes s w.disk now name e := by
  have hvalid : ∀ {m : Int}, w.disk.modified (Path.join s.directory name) = .ok m →
      (((s.isPathValidAt (Path.join s.directory name) now).run b w).1 = true ↔ age m now ≤ s.maxAge * 1000 ∧
        HoldsSession w.disk (Path.join s.directory name)) := by
    intro m hm
    rw [isPathValidAt_eq_true_iff, hm]
    simp only [Except.ok.injEq, exists_eq_left', readSession_eq_ok_iff]
    exact and_congr_right fun _ => exists_comm
  rw [stored?, roleOf?_join hname]
  constructor
  · intro h
    split at h
    · cases h
    · next role hrole =>
        rw [Plan.bind_eq, Plan.run_file, World.fileStep] at h
        split at h
        · cases h
        · next m hm =>
            rw [Plan.bind_eq, Plan.run_bind] at h
            obtain rfl := Option.some.inj h
            exact ⟨rfl, hrole, hm, hvalid hm⟩
  · rintro ⟨hpath, hrole, hcreated, hiff⟩
    rw [hpath] at hcreated hiff
    rw [hrole]
    dsimp only
    rw [Plan.bind_eq, Plan.run_file, World.fileStep, hcreated]
    dsimp only
    rw [Plan.bind_eq, Plan.run_bind]
    have hsame : ((s.isPathValidAt (Path.join s.directory name) now).run b w).1 = e.isValid := by
      rw [Bool.eq_iff_iff, hvalid hcreated, hiff]
    rw [hsame, ← hpath]
    rfl

/-- Something is said of each file whose name speaks of a role and whose time can be told. -/
theorem exists_describes_iff {d : Disk} :
    (∃ e, Describes s d now name e) ↔ (∃ role, roleOf? name s.settings.filePattern = some role) ∧
      ∃ m, d.modified (Path.join s.directory name) = .ok m := by
  constructor
  · rintro ⟨e, he⟩
    exact ⟨⟨_, he.role⟩, _, he.path ▸ he.createdAt⟩
  · rintro ⟨⟨role, hrole⟩, m, hm⟩
    obtain ⟨valid, hvalid⟩ : ∃ valid : Bool, valid = true ↔ age m now ≤ s.maxAge * 1000 ∧
        HoldsSession d (Path.join s.directory name) := by
      classical
      exact ⟨decide _, decide_eq_true_iff⟩
    exact ⟨⟨role, m, Path.join s.directory name, valid⟩, ⟨rfl, hrole, hm, hvalid⟩⟩

/-! ### Inventories -/

/-- A list of what a directory holds, as of a time.  One thing is said, under their names in `entries`, of the files
with the extension whose names speak of a role and whose times can be told, and all of that is listed once. -/
structure Inventory (s : Store) (d : Disk) (now : Int) (above : Place) (entries : List (String × Stored))
    (listed : List Stored) : Prop where
  home : d.home s.directory = .ok above
  names : ∀ name, name ∈ entries.map Prod.fst ↔ (∃ e, d.tree.get? (above ++ [name]) = some e) ∧
    Path.hasExtension name "json" = true ∧ (∃ role, roleOf? name s.settings.filePattern = some role) ∧
      ∃ m, d.modified (Path.join s.directory name) = .ok m
  ascending : (entries.map Prod.fst).Pairwise (· < ·)
  describes : ∀ x ∈ entries, Describes s d now x.1 x.2
  perm : listed.Perm (entries.map Prod.snd)
  sorted : listed.Pairwise fun e e' =>
    e.role < e'.role ∨ e.role = e'.role ∧ Path.parts e.path < Path.parts e'.path

theorem mem_known {names : List String} {x : String × Stored} : x ∈ known b s w now names ↔
    x.1 ∈ names ∧ Path.hasExtension x.1 "json" = true ∧
      ((s.stored? now (Path.join s.directory x.1)).run b w).1 = some x.2 := by
  rw [known, List.mem_filterMap]
  constructor
  · rintro ⟨name, hname, hx⟩
    obtain ⟨e, he, rfl⟩ := Option.map_eq_some_iff.mp hx
    obtain ⟨hmem, hext⟩ := List.mem_filter.mp hname
    exact ⟨hmem, hext, he⟩
  · rintro ⟨hmem, hext, he⟩
    exact ⟨x.1, List.mem_filter.mpr ⟨hmem, hext⟩, by rw [he]; rfl⟩

theorem pairwise_known {names : List String} (h : names.Pairwise (· < ·)) :
    (known b s w now names).Pairwise fun x y => x.1 < y.1 := by
  refine List.pairwise_filterMap.mpr ((h.sublist List.filter_sublist).imp fun {n m} hnm x hx y hy => ?_)
  obtain ⟨-, -, rfl⟩ := Option.map_eq_some_iff.mp hx
  obtain ⟨-, -, rfl⟩ := Option.map_eq_some_iff.mp hy
  exact hnm

theorem inventory_listAt (hproper : w.disk.tree.Proper) {names : List String}
    (h : w.disk.names s.directory = .ok names) :
    ∃ above, names = w.disk.tree.names above ∧
      Inventory s w.disk now above (known b s w now names) ((s.listAt now).run b w).1 := by
  obtain ⟨above, -, -, hhome, rfl⟩ := Disk.names_eq_ok h
  have hsimple : ∀ {name}, name ∈ w.disk.tree.names above → Path.Simple name :=
    fun hname => Files.Tree.simple_of_mem_names hproper hname
  have hdescribes : ∀ x ∈ known b s w now (w.disk.tree.names above), Describes s w.disk now x.1 x.2 := by
    intro x hx
    obtain ⟨hname, -, hstored⟩ := mem_known.mp hx
    exact (run_stored?_eq_some_iff (hsimple hname)).mp hstored
  have hascending : (known b s w now (w.disk.tree.names above)).Pairwise fun x y => x.1 < y.1 :=
    pairwise_known (Files.Tree.pairwise_names hproper above)
  rw [run_listAt_of_ok h]
  refine ⟨above, rfl, hhome, fun name => ?_, List.pairwise_map.mpr hascending, hdescribes, List.mergeSort_perm _ _, ?_⟩
  · constructor
    · intro hmem
      obtain ⟨x, hx, rfl⟩ := List.mem_map.mp hmem
      obtain ⟨hname, hext, -⟩ := mem_known.mp hx
      exact ⟨Files.Tree.mem_names_iff.mp hname, hext, (exists_describes_iff).mp ⟨_, hdescribes x hx⟩⟩
    · rintro ⟨hentry, hext, hsaid⟩
      have hname := Files.Tree.mem_names_iff.mpr hentry
      obtain ⟨e, he⟩ := exists_describes_iff.mpr hsaid
      have hstored := (run_stored?_eq_some_iff (b := b) (hsimple hname)).mpr he
      exact List.mem_map.mpr ⟨(name, e), mem_known.mpr ⟨hname, hext, hstored⟩, rfl⟩
  · refine pairwise_mergeSort Stored.role (List.pairwise_map.mpr (hascending.imp_of_mem fun {x y} hx hy hxy => ?_))
    rw [(hdescribes x hx).path, (hdescribes y hy).path, (hsimple (mem_known.mp hx).1).parts_join,
      (hsimple (mem_known.mp hy).1).parts_join]
    exact List.append_left_lt (List.Lex.rel hxy)

end

/-- **What is listed.**  The clock is looked at once, before any file is, and all that is listed is listed as of that
time, whatever the time has become.  A directory that is missing or cannot be read leaves an empty list.  Otherwise
the list is an inventory of the directory: it has one thing to say about each entry with the extension of sessions
whose name speaks of a role and whose time can be told, and nothing else; its role is the one that its own name
speaks of, and it is valid if it is not too old at that time and can be decoded; and it is sorted by role, and by path
where the roles are the same.  The tree is proper, as all trees are that plans leave. -/
theorem list_spec {s : Store} {σ : Type} {b : PageBehaviour σ} {w : World σ} (hproper : w.disk.tree.Proper) :
    s.list = Plan.wallClock >>= s.listAt ∧ ((s.list).run b w).1 = ((s.listAt w.wall).run b w).1 ∧
      ∀ now, (∀ e, w.disk.names s.directory = .error e → ((s.listAt now).run b w).1 = []) ∧
        ∀ names, w.disk.names s.directory = .ok names → ∃ above entries, names = w.disk.tree.names above ∧
          Inventory s w.disk now above entries ((s.listAt now).run b w).1 := by
  refine ⟨list_eq s, by rw [list_eq, Plan.bind_eq, Plan.run_wallClock], fun now => ⟨fun e he => ?_, ?_⟩⟩
  · exact run_listAt_of_error he
  · intro names hnames
    obtain ⟨above, hlist, hinventory⟩ := inventory_listAt hproper hnames
    exact ⟨above, _, hlist, hinventory⟩

/-- A directory with an old session, a file that is no session, a young session, a name without a role and a link that
leads nowhere. -/
def archive : World Unit where
  page := ()
  epoch := 4000000
  disk.tree :=
    [([".auth-states"], .directory 0), ([".auth-states", "notes.json"], .file (.text "") 0),
      ([".auth-states", "qa!-dev.json"], .file (.text (StoredSession.written {})) 4000000),
      ([".auth-states", "qa-dev.json"], .file (.text (StoredSession.written {})) 0),
      ([".auth-states", "qa-eu.json"], .file (.text "") 4000000), ([".auth-states", "qa-us.json"], .link "gone")]

/-- Both files of one role come before that of the other one, though its name comes first. -/
theorem list_spec_archive :
    archive.disk.tree.Proper ∧
      (((stagingStore.list).run Manager.homePage archive).1.map fun e => (e.role, e.path, e.isValid)) =
        [("qa", ".auth-states/qa-dev.json", false), ("qa", ".auth-states/qa-eu.json", false),
          ("qa!", ".auth-states/qa!-dev.json", true)] ∧
      ∃ above entries, Inventory stagingStore archive.disk archive.wall above entries
        ((stagingStore.list).run Manager.homePage archive).1 := by
  have hproper : archive.disk.tree.Proper := by
    have hparts : ∀ e ∈ archive.disk.tree, ∀ part ∈ e.1, '/' ∉ part.toList ∧ 3 ≤ part.length := by decide +kernel
    exact ⟨by decide +kernel, fun e he part hpart => .of_length (hparts e he part hpart).1 (hparts e he part hpart).2⟩
  have hlist : archive.disk.tree.names [".auth-states"] =
      ["notes.json", "qa!-dev.json", "qa-dev.json", "qa-eu.json", "qa-us.json"] :=
    List.mergeSort_of_pairwise (by decide +kernel)
  have hnames : archive.disk.names ".auth-states" = .ok (archive.disk.tree.names [".auth-states"]) := by
    have hentry : archive.disk.entry? true ".auth-states" = .ok ([".auth-states"], .directory 0) := by decide +kernel
    rw [Disk.names, hentry]
  obtain ⟨-, hrun, hat⟩ := list_spec (s := stagingStore) (b := Manager.homePage) hproper
  obtain ⟨above, entries, -, hinventory⟩ := (hat archive.wall).2 _ hnames
  rw [hrun]
  refine ⟨hproper, ?_, above, entries, hinventory⟩
  have hknown : (known Manager.homePage stagingStore archive archive.wall
      ["notes.json", "qa!-dev.json", "qa-dev.json", "qa-eu.json", "qa-us.json"]).map Prod.snd =
        [⟨"qa!", 4000000, ".auth-states/qa!-dev.json", true⟩, ⟨"qa", 0, ".auth-states/qa-dev.json", false⟩,
          ⟨"qa", 4000000, ".auth-states/qa-eu.json", false⟩] := by decide +kernel
  have hsort : List.mergeSort [⟨"qa!", 4000000, ".auth-states/qa!-dev.json", true⟩,
      ⟨"qa", 0, ".auth-states/qa-dev.json", false⟩, ⟨"qa", 4000000, ".auth-states/qa-eu.json", false⟩]
        (keyOrder Stored.role) =
      [⟨"qa", 0, ".auth-states/qa-dev.json", false⟩, ⟨"qa", 4000000, ".auth-states/qa-eu.json", false⟩,
        ⟨"qa!", 4000000, ".auth-states/qa!-dev.json", true⟩] :=
    mergeSort_eq_of_pairwise Stored.role (fun e e' (h : e.path < e'.path) => lt_asymm h)
      (by decide +kernel) (by decide +kernel) (by decide +kernel)
  rw [run_listAt_of_ok hnames, hlist, hknown, hsort]
  rfl

end SignOn.Store
