import SignOn.Proofs.Json.Decoding
import SignOn.Proofs.Paths
import SignOn.Proofs.Worlds

/-! # Keeping sessions

* **Round trip.**  What is written for a session that is `Exportable` is decoded to that session
  (`decode_written`).
* **Looking.**  Asking whether a session is valid, loading it and reading it only look at the world.
* **Writing.**  `write` puts the session in place under the present time, or it fails and changes no
  file with the ending of sessions. -/

namespace SignOn

open Files (Tree Place Entry Disk)

/-! ### Sessions as texts -/

namespace StoredSession

/-- The numbers of the session are integers of 64 bits, its objects have their keys in order, and it is
no deeper than a text may be. -/
structure Exportable (s : StoredSession) : Prop where
  cookies : s.cookies.Regular Number.IsInteger
  origins : s.origins.Regular Number.IsInteger
  depth : s.toJson.depth ≤ Json.maxDepth

variable {s : StoredSession}

theorem regular_toJson {N : Number → Prop} (hc : s.cookies.Regular N) (ho : s.origins.Regular N) :
    s.toJson.Regular N := by
  have hkeys : "cookies" < "origins" := by decide
  refine ⟨fun m hm => ?_, hc, fun m hm => (nomatch hm), ho, trivial⟩
  rw [List.mem_singleton.mp hm]
  exact hkeys

theorem decoder_draft {N : Number → Prop} (hc : s.cookies.Regular N)
    (ho : s.origins.Regular N) {depth : Nat} (hcd : s.cookies.depth ≤ depth)
    (hod : s.origins.depth ≤ depth) : decoder (depth + 2) s.toJson.draft = .ok s := by
  have hcookies := Json.sequence_draft hc hcd
  have horigins := Json.sequence_draft ho hod
  simp only [toJson, JsonMembers.ofList, Json.draft, JsonMembers.draft, decoder, Json.record]
  simp [Json.recordMembers, Json.required, hcookies, horigins, Except.map]

theorem decoder_draft_of_lt {depth : Nat} (hd : depth < s.cookies.depth ∨ depth < s.origins.depth) :
    ∃ e, decoder (depth + 2) s.toJson.draft = .error e := by
  simp only [toJson, JsonMembers.ofList, Json.draft, JsonMembers.draft, decoder, Json.record]
  rcases hd with hd | hd
  · obtain ⟨e, he⟩ := Json.sequence_draft_of_lt hd
    exact ⟨e, by simp [Json.recordMembers, Json.required, he, Except.map]⟩
  · obtain ⟨e, he⟩ := Json.sequence_draft_of_lt hd
    cases hc : Json.sequence Json.value (depth + 1) (.array s.cookies.draft) with
    | error e => exact ⟨e, by simp [Json.recordMembers, Json.required, hc, Except.map]⟩
    | ok vs => exact ⟨e, by simp [Json.recordMembers, Json.required, hc, he, Except.map]⟩

theorem decodeReading_written (hc : s.cookies.Regular Number.IsInteger)
    (ho : s.origins.Regular Number.IsInteger) :
    Json.decodeReading decoder (Json.readSymbols (Text.symbols s.written)) =
      decoder (125 + 2) s.toJson.draft := by
  have htext : Text.symbols s.written = (Json.prettyChars 0 s.toJson).map some := by
    rw [Text.symbols, written, Json.pretty, String.toList_ofList]
  have hread := Json.readSymbols_spells ((regular_toJson hc ho).numbersIn.mono fun _ hn => hn.readsBack)
    (Json.spells_prettyChars 0 s.toJson)
  rw [htext, hread, Json.decodeReading]
  simp only [Json.maxDepth]
  cases decoder (125 + 2) s.toJson.draft <;> rfl

/-- What is written for a session is decoded to that session. -/
theorem Exportable.decode_written (h : s.Exportable) :
    Json.decodeReading decoder (Json.readSymbols (Text.symbols s.written)) = .ok s := by
  have hdepth := h.depth
  simp only [toJson, JsonMembers.ofList, Json.depth, JsonMembers.depth, Json.maxDepth] at hdepth
  rw [decodeReading_written h.cookies h.origins]
  exact decoder_draft h.cookies h.origins (by omega) (by omega)

theorem decode_written_of_lt (hc : s.cookies.Regular Number.IsInteger) (ho : s.origins.Regular Number.IsInteger)
    (hdepth : Json.maxDepth < s.toJson.depth) :
    ∃ e, Json.decodeReading decoder (Json.readSymbols (Text.symbols s.written)) = .error e := by
  simp only [toJson, JsonMembers.ofList, Json.depth, JsonMembers.depth, Json.maxDepth] at hdepth
  rw [decodeReading_written hc ho]
  exact decoder_draft_of_lt (by omega)

end StoredSession

namespace Store

/-! ### Looking at sessions -/

theorem obeys_readSession (path : String) : (readSession path).Obeys Request.LooksAtFiles fun _ => True := by
  unfold readSession
  refine Plan.obeys_ask trivial fun r => ?_
  split
  · exact trivial
  · exact trivial
  · split <;> exact trivial

theorem obeys_isPathValidAt (s : Store) (path : String) (now : Int) :
    (s.isPathValidAt path now).Obeys Request.LooksAtFiles fun _ => True := by
  unfold isPathValidAt
  refine Plan.obeys_ask trivial fun r => ?_
  split
  · exact trivial
  · dsimp only
    split
    · exact Plan.obeys_ask trivial fun _ => trivial
    · exact (obeys_readSession path).bind fun _ _ => trivial

theorem obeys_isValid (s : Store) (role : String) :
    (s.isValid role).Obeys Request.LooksAtFiles fun _ => True :=
  Plan.obeys_ask trivial fun now => s.obeys_isPathValidAt (s.path role) now

theorem obeys_load (s : Store) (role : String) : (s.load role).Obeys Request.LooksAtFiles fun _ => True := by
  unfold load
  refine (s.obeys_isValid role).bind fun valid _ => ?_
  cases valid with
  | true => exact Plan.obeys_ask trivial fun _ => trivial
  | false => exact trivial

theorem obeys_read (s : Store) (role : String) : (s.read role).Obeys Request.LooksAtFiles fun _ => True := by
  unfold read
  refine (obeys_readSession (s.path role)).bind fun r _ => ?_
  cases r <;> exact trivial

theorem looks_of_obeys {α : Type} {p : Plan α} (h : p.Obeys Request.LooksAtFiles fun _ => True) :
    p.Obeys Request.Looks fun _ => True :=
  h.mono (fun _ => Request.LooksAtFiles.looks) fun _ => id

section

variable {σ : Type} (b : PageBehaviour σ) (s : Store) (role : String) (w : World σ)

theorem run_load :
    ((s.load role).run b w).1 = if ((s.isValid role).run b w).1 then some (s.path role) else none := by
  rw [load, Plan.bind_eq, Plan.run_bind]
  cases ((s.isValid role).run b w).1 <;> rfl

theorem valid_of_run_load {path : String} (h : ((s.load role).run b w).1 = some path) :
    path = s.path role ∧ ((s.isValid role).run b w).1 = true := by
  rw [run_load] at h
  split at h
  · next hvalid => exact ⟨(Option.some.inj h).symm, hvalid⟩
  · cases h

theorem exists_read_of_isValid (h : ((s.isValid role).run b w).1 = true) :
    ∃ session, ((s.read role).run b w).1 = .ok session := by
  rw [isValid, Plan.bind_eq, Plan.run_wallClock, isValidAt, isPathValidAt, Plan.bind_eq, Plan.run_file,
    World.fileStep] at h
  cases hmod : w.disk.modified (s.path role) with
  | error e =>
      rw [hmod] at h
      cases h
  | ok modified =>
      rw [hmod] at h
      dsimp only at h
      split at h
      · cases h
      · rw [Plan.bind_eq, Plan.run_bind] at h
        rw [read, Plan.bind_eq, Plan.run_bind]
        cases hread : ((readSession (s.path role)).run b w).1 with
        | error e =>
            rw [hread] at h
            cases h
        | ok session => exact ⟨session, rfl⟩

/-- Looking for the sessions of a directory that can be read gives the paths of its files with the extension. -/
theorem run_files_of_ok {names : List String} (h : w.disk.names s.directory = .ok names) :
    s.files.run b w = (.ok ((names.filter (Path.hasExtension · "json")).map (Path.join s.directory)), w) := by
  rw [files, Plan.bind_eq, Plan.run_file, World.fileStep, h]
  rfl

theorem run_files_of_error {e : FileError} (h : w.disk.names s.directory = .error e) :
    s.files.run b w = (.error e, w) := by
  rw [files, Plan.bind_eq, Plan.run_file, World.fileStep, h]
  rfl

end

end Store

/-! ### Files with the ending of sessions -/

/-- A name with the ending of sessions. -/
def IsSessionName (name : String) : Prop :=
  ∃ x, name.toList = x ++ Store.ending.toList

/-- Every file with the ending of sessions is in `d'` what it is in `d`, and every directory of `d` is
one of `d'`. -/
structure KeepsSessions (d d' : Disk) : Prop where
  working : d'.working = d.working
  directories : ∀ p, d.tree.HasDirectory p → d'.tree.HasDirectory p
  files : ∀ (p : Place) name, p.getLast? = some name → IsSessionName name → ∀ c m,
    d'.tree.get? p = some (.file c m) ↔ d.tree.get? p = some (.file c m)

namespace KeepsSessions

theorem refl (d : Disk) : KeepsSessions d d := ⟨rfl, fun _ => id, fun _ _ _ _ _ _ => Iff.rfl⟩

theorem trans {d e f : Disk} (h : KeepsSessions d e) (h' : KeepsSessions e f) : KeepsSessions d f where
  working := h'.working.trans h.working
  directories p hp := h'.directories p (h.directories p hp)
  files p name hp hname c m := (h'.files p name hp hname c m).trans (h.files p name hp hname c m)

theorem of_grown {d d' : Disk} (h : Disk.Grown d d') : KeepsSessions d d' where
  working := h.working
  directories _ hp := h.tree.hasDirectory hp
  files p _ _ _ _ _ := h.tree.get?_iff p fun _ => Entry.noConfusion

end KeepsSessions

/-! ### The file at a place -/

/-- A file at a place is in `d'` what it is in `d`, and every directory of `d` is one of `d'`. -/
structure KeepsAt (q : Place) (d d' : Disk) : Prop where
  working : d'.working = d.working
  directories : ∀ p, d.tree.HasDirectory p → d'.tree.HasDirectory p
  file : ∀ c m, d'.tree.get? q = some (.file c m) ↔ d.tree.get? q = some (.file c m)

theorem KeepsSessions.at {d d' : Disk} (h : KeepsSessions d d') {q : Place} {name : String}
    (hq : q.getLast? = some name) (hname : IsSessionName name) : KeepsAt q d d' where
  working := h.working
  directories := h.directories
  file := h.files q name hq hname

namespace KeepsAt

variable {q : Place} {d d' : Disk} {now : Int} {source target path : String} {c : Files.Content} {modified : Int}

theorem refl (q : Place) (d : Disk) : KeepsAt q d d := ⟨rfl, fun _ => id, fun _ _ => Iff.rfl⟩

theorem trans {e : Disk} (h : KeepsAt q d d') (h' : KeepsAt q d' e) : KeepsAt q d e where
  working := h'.working.trans h.working
  directories p hp := h'.directories p (h.directories p hp)
  file c m := (h'.file c m).trans (h.file c m)

theorem of_rename (hd : d.tree.LinkFree) (hfile : d.HasFile source c modified)
    (h : d.rename now source target = .ok d') (hsource : q ≠ Files.goal d.working source)
    (htarget : q ≠ Files.goal d.working target) : KeepsAt q d d' := by
  obtain ⟨p, r, hp, hr, -, rfl, hdirs⟩ := Disk.rename_eq_ok_of_hasFile hd hfile h
  have hqp : q ≠ p := fun h => hsource (h.trans (Disk.goal_of_resolve hd hp))
  have hqr : q ≠ r := fun h => htarget (h.trans (Disk.goal_of_resolve hd hr))
  refine ⟨rfl, fun p' => (hdirs p').mpr, fun c' m' => ?_⟩
  rw [Disk.changed_tree, Files.Tree.get?_set_of_ne _ hqr, Files.Tree.get?_erase_of_ne hqp]

theorem of_remove (hd : d.tree.LinkFree) (h : d.remove now path = .ok d')
    (hpath : q ≠ Files.goal d.working path) : KeepsAt q d d' := by
  unfold Disk.remove at h
  split at h
  · cases h
  · cases h
  · next p e hno hentry =>
      cases h
      obtain ⟨hp, he⟩ := Disk.entry?_eq_ok.mp hentry
      have hqp : q ≠ p := fun h => hpath (h.trans (Disk.goal_of_resolve hd hp))
      have hdir : ¬ d.tree.HasDirectory p := fun ⟨m, hm⟩ => by
        obtain rfl : e = .directory m := Option.some.inj (he.symm.trans hm)
        exact hno m rfl
      refine ⟨rfl, fun r => (Files.Tree.hasDirectory_erase hdir r).mpr, fun c m => ?_⟩
      rw [Disk.changed_tree, Files.Tree.get?_erase_of_ne hqp]

section

variable (hkeeps : KeepsAt (Files.goal d.working path) d d')

include hkeeps

theorem hasFile (hd : d.tree.LinkFree) (hd' : d'.tree.LinkFree) (h : d.HasFile path c modified) :
    d'.HasFile path c modified := by
  obtain ⟨q, hq, hc⟩ := h
  obtain rfl := Disk.goal_of_resolve hd hq
  have hc' := (hkeeps.file c modified).mpr hc
  have hdir : ¬ d'.tree.HasDirectory (Files.goal d.working path) := fun ⟨m, hm⟩ => by
    rw [hc'] at hm
    cases hm
  exact ⟨_, Disk.resolve_congr hd hd' hkeeps.working hkeeps.directories hq fun h => absurd h hdir, hc'⟩

theorem get?_of_hasFile (hd' : d'.tree.LinkFree) (h : d'.HasFile path c modified) :
    d.tree.get? (Files.goal d.working path) = some (.file c modified) := by
  obtain ⟨q, hq, hc⟩ := h
  have hgoal := Disk.goal_of_resolve hd' hq
  rw [hkeeps.working] at hgoal
  exact (hkeeps.file c modified).mp (hgoal ▸ hc)

end

end KeepsAt

namespace Store

variable {σ : Type} {b : PageBehaviour σ} {s : Store} {role path : String} {session : StoredSession}
variable {w w' : World σ}

/-- The path of a role ends in a name of a session, and the file written first does not. -/
theorem exists_names_path (s : Store) (role : String) :
    ∃ init name temp, Path.parts (s.path role) = init ++ [name] ∧
      Path.parts (temporary (s.path role)) = init ++ [temp] ∧
      IsSessionName name ∧ name ≠ ".." ∧ ¬ IsSessionName temp ∧ temp ≠ ".." := by
  obtain ⟨init, last, hpath, htemp⟩ := s.exists_parts_path role
  have hup : ∀ t : List Char, 3 ≤ t.length → String.ofList (last ++ t) ≠ ".." := by
    intro t ht h
    have hlen := congrArg String.length h
    rw [String.length_ofList, List.length_append] at hlen
    have : ("..".length) = 2 := rfl
    omega
  refine ⟨init, _, _, hpath, htemp, ⟨last, String.toList_ofList⟩, hup _ (by decide), ?_, hup _ (by decide)⟩
  rintro ⟨x, hx⟩
  rw [String.toList_ofList] at hx
  have hlast := congrArg List.getLast? hx
  have htmp : (ending ++ ".tmp").toList.getLast? = some 'p' := by decide
  have hend : ending.toList.getLast? = some 'n' := by decide
  rw [List.getLast?_append, List.getLast?_append, htmp, hend] at hlast
  exact absurd (Option.some.inj hlast) (by decide)

theorem hasFile_of_keepsSessions {d d' : Disk} (h : KeepsSessions d d') (hd : d.tree.LinkFree)
    (hd' : d'.tree.LinkFree) {c : Files.Content} {modified : Int}
    (hfile : d.HasFile (s.path role) c modified) : d'.HasFile (s.path role) c modified := by
  obtain ⟨init, name, temp, hpath, -, hname, hup, -⟩ := s.exists_names_path role
  exact (h.at (Files.getLast?_goal hpath hup d.working) hname).hasFile hd hd' hfile

/-- The file that a session is written to first is none with the ending of sessions. -/
theorem keepsSessions_of_write {d d' : Disk} (hd : d.tree.LinkFree) {now : Int} {c : Files.Content}
    (h : d.write now (temporary (s.path role)) c = .ok d') : KeepsSessions d d' := by
  obtain ⟨init, name, temp, -, htemp, -, -, hname, hup⟩ := s.exists_names_path role
  have hframe := fun p => Disk.get?_write (p := p) hd h htemp hup
  obtain ⟨q, -, hdir, rfl⟩ := Disk.write_eq_ok h
  refine ⟨rfl, fun p hp => ?_, fun p n hp hn c m => ?_⟩
  · exact (Files.Tree.hasDirectory_set hdir (fun _ => Entry.noConfusion) p).mpr hp
  · rw [hframe p fun htmp => hname (Option.some.inj (htmp.symm.trans hp) ▸ hn)]

/-! ### Writing -/

/-- What a write does: it makes directories, then writes the file beside, then moves it.  If it fails behind the
second step, the file could not be moved. -/
theorem run_write_parts {r : Except StorageError String}
    (h : (s.write role session).run b w = (r, w')) :
    w'.wall = w.wall ∧ ∃ d failure,
      w.disk.makeDirectories w.wall ((Path.parent? (s.path role)).getD "") = (d, failure) ∧
      ((w'.disk = d ∧ ∃ e, r = .error e) ∨
        ∃ d', d.write w.wall (temporary (s.path role)) (.text session.written) = .ok d' ∧
          (((∃ f, d'.rename w.wall (temporary (s.path role)) (s.path role) = .error f) ∧ w'.disk = d' ∧
              ∃ e, r = .error e) ∨
            (d'.rename w.wall (temporary (s.path role)) (s.path role) = .ok w'.disk ∧
              r = .ok (s.path role)))) := by
  unfold write at h
  simp only [Plan.bind_eq, Plan.run_file] at h
  generalize hmade : w.disk.makeDirectories w.wall ((Path.parent? (s.path role)).getD "") = made at h
  obtain ⟨d, failure⟩ := made
  cases failure with
  | some e =>
      rw [World.fileStep_makeDirectories_error hmade] at h
      cases h
      exact ⟨rfl, d, some e, rfl, .inl ⟨rfl, _, rfl⟩⟩
  | none =>
      rw [World.fileStep_makeDirectories_ok hmade] at h
      simp only [Plan.run_file] at h
      cases hwrite : d.write w.wall (temporary (s.path role)) (.text session.written) with
      | error e =>
          rw [World.fileStep_write_error (w := w.withDisk d) hwrite] at h
          cases h
          exact ⟨rfl, d, none, rfl, .inl ⟨rfl, _, rfl⟩⟩
      | ok d' =>
          rw [World.fileStep_write_ok (w := w.withDisk d) hwrite] at h
          simp only [Plan.run_file] at h
          cases hmove : d'.rename w.wall (temporary (s.path role)) (s.path role) with
          | error e =>
              rw [World.fileStep_rename_error (w := (w.withDisk d).withDisk d') hmove] at h
              cases h
              exact ⟨rfl, d, none, rfl, .inr ⟨d', hwrite, .inl ⟨⟨e, hmove⟩, rfl, _, rfl⟩⟩⟩
          | ok d'' =>
              rw [World.fileStep_rename_ok (w := (w.withDisk d).withDisk d') hmove] at h
              cases h
              exact ⟨rfl, d, none, rfl, .inr ⟨d', hwrite, .inr ⟨hmove, rfl⟩⟩⟩

theorem run_write_steps {r : Except StorageError String}
    (h : (s.write role session).run b w = (r, w')) :
    w'.wall = w.wall ∧ ∃ d failure,
      w.disk.makeDirectories w.wall ((Path.parent? (s.path role)).getD "") = (d, failure) ∧
      ((w'.disk = d ∧ ∃ e, r = .error e) ∨
        ∃ d', d.write w.wall (temporary (s.path role)) (.text session.written) = .ok d' ∧
          ((w'.disk = d' ∧ ∃ e, r = .error e) ∨
            (d'.rename w.wall (temporary (s.path role)) (s.path role) = .ok w'.disk ∧
              r = .ok (s.path role)))) := by
  obtain ⟨hwall, d, failure, hmade, hrest⟩ := run_write_parts h
  refine ⟨hwall, d, failure, hmade, hrest.imp_right ?_⟩
  rintro ⟨d', hwrite, hlast⟩
  exact ⟨d', hwrite, hlast.imp_left And.right⟩

theorem run_write_cases {r : Except StorageError String}
    (h : (s.write role session).run b w = (r, w')) :
    w'.wall = w.wall ∧ ∃ d, Disk.Grown w.disk d ∧
      ((w'.disk = d ∧ ∃ e, r = .error e) ∨
        ∃ d', d.write w.wall (temporary (s.path role)) (.text session.written) = .ok d' ∧
          ((w'.disk = d' ∧ ∃ e, r = .error e) ∨
            (d'.rename w.wall (temporary (s.path role)) (s.path role) = .ok w'.disk ∧
              r = .ok (s.path role)))) := by
  obtain ⟨hwall, d, failure, hmade, hrest⟩ := run_write_steps h
  exact ⟨hwall, d, Disk.grown_of_makeDirectories hmade, hrest⟩

/-- A write that succeeds has made directories, written the file beside and moved it. -/
theorem of_run_write_ok (h : (s.write role session).run b w = (.ok path, w')) :
    path = s.path role ∧ w'.wall = w.wall ∧ ∃ d d', Disk.Grown w.disk d ∧
      d.write w.wall (temporary (s.path role)) (.text session.written) = .ok d' ∧
      d'.rename w.wall (temporary (s.path role)) (s.path role) = .ok w'.disk := by
  obtain ⟨hwall, d, hgrown, ⟨-, e, he⟩ | ⟨d', hwrite, ⟨-, e, he⟩ | ⟨hmove, hpath⟩⟩⟩ := run_write_cases h
  · cases he
  · cases he
  · exact ⟨Except.ok.inj hpath, hwall, d, d', hgrown, hwrite, hmove⟩

theorem hasFile_of_run_write (hw : w.disk.tree.LinkFree)
    (h : (s.write role session).run b w = (.ok path, w')) :
    path = s.path role ∧ w'.disk.HasFile (s.path role) (.text session.written) w'.wall := by
  obtain ⟨hpath, hwall, d, d', hgrown, hwrite, hmove⟩ := of_run_write_ok h
  have hd := hgrown.tree.linkFree hw
  rw [hwall]
  exact ⟨hpath, Disk.hasFile_of_rename (Disk.linkFree_write hd hwrite) (Disk.hasFile_of_write hd hwrite) hmove⟩

theorem keepsSessions_of_run_write {e : StorageError} (hw : w.disk.tree.LinkFree)
    (h : (s.write role session).run b w = (.error e, w')) : KeepsSessions w.disk w'.disk := by
  obtain ⟨-, d, hgrown, ⟨rfl, -⟩ | ⟨d', hwrite, ⟨rfl, -⟩ | ⟨-, hpath⟩⟩⟩ := run_write_cases h
  · exact .of_grown hgrown
  · exact (KeepsSessions.of_grown hgrown).trans (keepsSessions_of_write (hgrown.tree.linkFree hw) hwrite)
  · cases hpath

/-! ### What is read of a written session -/

theorem readSession_of_content {c : Files.Content} (hread : w.disk.read path = .ok c) :
    (readSession path).run b w =
      match Json.decodeReading StoredSession.decoder (Json.readSymbols c.symbols) with
      | .ok session => (.ok session, w)
      | .error e => (.error (.corrupted, "expected \x7bcookies: [], origins: []\x7d: ", some e), w) := by
  rw [readSession, Plan.bind_eq, Plan.run_file, World.fileStep, hread]
  dsimp only
  cases Json.decodeReading StoredSession.decoder (Json.readSymbols c.symbols) <;> rfl

theorem isPathValidAt_of_hasFile (s : Store) {c : Files.Content} (hfile : w.disk.HasFile path c w.wall) :
    ((s.isPathValidAt path w.wall).run b w).1 =
      (Json.decodeReading StoredSession.decoder (Json.readSymbols c.symbols)).isOk := by
  have hage : age w.wall w.wall = 0 := by rw [age, Int.sub_self, Int.toNat_zero]
  rw [isPathValidAt, Plan.bind_eq, Plan.run_file, World.fileStep, hfile.modified]
  dsimp only
  rw [hage, if_neg (Nat.not_lt_zero _), Plan.bind_eq, Plan.run_bind, readSession_of_content hfile.read]
  cases Json.decodeReading StoredSession.decoder (Json.readSymbols c.symbols) <;> rfl

section

variable (hs : session.Exportable)

include hs

theorem read_of_content {c : Files.Content} (hread : w.disk.read (s.path role) = .ok c)
    (hc : c.symbols = Text.symbols session.written) : ((s.read role).run b w).1 = .ok session := by
  rw [read, Plan.bind_eq, Plan.run_bind, readSession_of_content hread, hc, hs.decode_written]
  rfl

variable {m : Int} (hfile : w.disk.HasFile (s.path role) (.text session.written) m)

include hfile

theorem read_of_hasFile : ((s.read role).run b w).1 = .ok session :=
  read_of_content hs hfile.read rfl

theorem isValid_of_hasFile (hm : m = w.wall) : ((s.isValid role).run b w).1 = true := by
  have hsymbols : (Files.Content.text session.written).symbols = Text.symbols session.written := rfl
  subst hm
  rw [isValid, Plan.bind_eq, Plan.run_wallClock, isValidAt, s.isPathValidAt_of_hasFile hfile, hsymbols,
    hs.decode_written]
  rfl

end

/-! ### Saving -/

theorem run_save (s : Store) (role : String) (w : World σ) :
    (s.save role).run b w =
      match (b.respond .storageState w.page w.now).outcome with
      | .error e =>
        (.error (s.failure role .invalid ("failed to export storage state: " ++ e.message)),
          (w.step b (.page .storageState)).after)
      | .ok session => (s.write role session).run b (w.step b (.page .storageState)).after := by
  rw [Store.save, Plan.bind_eq, Plan.run_page]
  cases (b.respond .storageState w.page w.now).outcome <;> rfl

/-- All that a save can do: the page gives out no session, or what it gives out is written. -/
theorem run_save_cases {r : Except StorageError String} (h : (s.save role).run b w = (r, w')) :
    ∃ v : World σ, v.disk = w.disk ∧
      ((w' = v ∧ ∃ e, r = .error e) ∨
        ∃ session, (b.respond .storageState w.page w.now).outcome = .ok session ∧
          (s.write role session).run b v = (r, w')) := by
  refine ⟨(w.step b (.page .storageState)).after, (World.disk_step b (r := .page .storageState) trivial w).1, ?_⟩
  rw [run_save] at h
  cases hexport : (b.respond .storageState w.page w.now).outcome with
  | error e =>
      rw [hexport] at h
      cases h
      exact .inl ⟨rfl, _, rfl⟩
  | ok session =>
      rw [hexport] at h
      exact .inr ⟨session, rfl, h⟩

theorem mem_trace_save (s : Store) (role : String) (w : World σ) :
    ⟨w, .page .storageState, some (b.respond .storageState w.page w.now).outcome⟩ ∈
      (s.save role).trace b w := by
  rw [Store.save, Plan.bind_eq, Plan.trace_bind]
  exact List.mem_append_left _ List.mem_cons_self

/-- A session that has been saved is what the page has given out; it is valid and is read as it is. -/
theorem valid_of_run_save (hw : w.disk.tree.LinkFree)
    (hpage : ∀ session, (b.respond .storageState w.page w.now).outcome = .ok session → session.Exportable)
    (h : (s.save role).run b w = (.ok path, w')) :
    ∃ session, (b.respond .storageState w.page w.now).outcome = .ok session ∧ path = s.path role ∧
      ((s.isValid role).run b w').1 = true ∧ ((s.read role).run b w').1 = .ok session := by
  obtain ⟨v, hv, ⟨-, e, he⟩ | ⟨session, hexport, hwrite⟩⟩ := run_save_cases h
  · cases he
  · have hs := hpage session hexport
    obtain ⟨hpath, hfile⟩ := hasFile_of_run_write (hv ▸ hw) hwrite
    exact ⟨session, hexport, hpath, isValid_of_hasFile hs hfile rfl, read_of_hasFile hs hfile⟩

theorem keepsSessions_of_run_save {e : StorageError} (hw : w.disk.tree.LinkFree)
    (h : (s.save role).run b w = (.error e, w')) : KeepsSessions w.disk w'.disk := by
  obtain ⟨v, hv, ⟨rfl, -⟩ | ⟨session, -, hwrite⟩⟩ := run_save_cases h
  · rw [hv]
    exact .refl w.disk
  · rw [← hv] at hw ⊢
    exact keepsSessions_of_run_write hw hwrite

end Store

end SignOn
