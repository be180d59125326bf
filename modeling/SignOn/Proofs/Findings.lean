import SignOn.Proofs.Stores

/-! # What the store finds at a path

* `StoredSession.Readable`: what is written for the session is read as a session again.
* `Disk.SameAt`: two disks that lead a path to the same file under the same time, or to the same failure.
  What is read at the path, and whether it is valid at a time, is then the same in both (`run_read_of_sameAt`,
  `run_isValidAt_of_sameAt`).
* `isPathValidAt_eq_true_iff` says what a valid session is: one that is there, not too old, and can be read.  If
  it has been written at a time, it is valid up to the `lastValid` instant, and not behind it. -/

namespace SignOn

/-- What is written for the session is read as a session again. -/
def StoredSession.Readable (s : StoredSession) : Prop :=
  ∃ t, Json.decodeReading decoder (Json.readSymbols (Text.symbols s.written)) = .ok t

theorem StoredSession.Exportable.readable {s : StoredSession} (h : s.Exportable) : s.Readable :=
  ⟨s, h.decode_written⟩

theorem StoredSession.not_readable {s : StoredSession} (hc : s.cookies.Regular Number.IsInteger)
    (ho : s.origins.Regular Number.IsInteger) (hdepth : Json.maxDepth < s.toJson.depth) : ¬ s.Readable := by
  rintro ⟨t, ht⟩
  obtain ⟨e, he⟩ := decode_written_of_lt hc ho hdepth
  cases he.symm.trans ht

namespace Files.Disk

/-- A path leads to the same in both disks: to a file under a time, or to a failure to read one. -/
structure SameAt (path : String) (d d' : Disk) : Prop where
  read : d'.read path = d.read path
  modified : ∀ c, d.read path = .ok c → d'.modified path = d.modified path

namespace SameAt

variable {path : String} {d d' : Disk}

theorem refl (path : String) (d : Disk) : SameAt path d d := ⟨rfl, fun _ _ => rfl⟩

theorem of_entry? (h : d'.entry? true path = d.entry? true path) : SameAt path d d' := by
  constructor
  · unfold Disk.read
    rw [h]
  · intro c hc
    unfold Disk.read at hc
    unfold Disk.modified
    rw [h]
    split at hc
    · cases hc
    · rfl
    · cases hc
    · cases hc

end SameAt

end Files.Disk

namespace Store

open Files (Disk)

section

variable {σ : Type} {b : PageBehaviour σ} {s : Store} {role path : String} {session : StoredSession}
variable {w w' : World σ}

/-! ### Reading -/

theorem readSession_eq_ok_iff :
    ((readSession path).run b w).1 = .ok session ↔ ∃ c, w.disk.read path = .ok c ∧
      Json.decodeReading StoredSession.decoder (Json.readSymbols c.symbols) = .ok session := by
  cases hread : w.disk.read path with
  | error e =>
      have hrun : ∃ failure, ((readSession path).run b w).1 = .error failure := by
        unfold readSession
        rw [Plan.bind_eq, Plan.run_file, World.fileStep, hread]
        dsimp only
        split
        · exact ⟨_, rfl⟩
        · exact ⟨_, rfl⟩
        · next h => cases h
      obtain ⟨failure, hfailure⟩ := hrun
      rw [hfailure]
      simp
  | ok c =>
      rw [readSession_of_content hread]
      cases hdecode : Json.decodeReading StoredSession.decoder (Json.readSymbols c.symbols) <;>
        simp [hdecode]

theorem run_readSession_of_sameAt (h : Disk.SameAt path w.disk w'.disk) :
    ((readSession path).run b w').1 = ((readSession path).run b w).1 := by
  unfold readSession
  rw [Plan.bind_eq, Plan.run_file, Plan.run_file, World.fileStep, World.fileStep, h.read]
  dsimp only
  split <;> (try split) <;> rfl

/-- What is read of a role is decided by what its path leads to. -/
theorem run_read_of_sameAt (h : Disk.SameAt (s.path role) w.disk w'.disk) :
    ((s.read role).run b w').1 = ((s.read role).run b w).1 := by
  unfold Store.read
  rw [Plan.bind_eq, Plan.run_bind, Plan.run_bind, run_readSession_of_sameAt h]
  generalize ((readSession (s.path role)).run b w').2 = v'
  generalize ((readSession (s.path role)).run b w).2 = v
  cases ((readSession (s.path role)).run b w).1 <;> rfl

theorem run_read_of_notFound (h : w.disk.read (s.path role) = .error .notFound) :
    ∃ e, ((s.read role).run b w).1 = .error e ∧ e.cause = .missing := by
  have hread : ((readSession (s.path role)).run b w).1 = .error (.missing, "file does not exist", none) := by
    unfold readSession
    rw [Plan.bind_eq, Plan.run_file, World.fileStep, h]
    rfl
  unfold Store.read
  rw [Plan.bind_eq, Plan.run_bind, hread]
  exact ⟨_, rfl, rfl⟩

/-! ### Valid sessions -/

/-- A session is valid at a time if it is there, not older than the limit, and can be read. -/
theorem isPathValidAt_eq_true_iff {now : Int} :
    ((s.isPathValidAt path now).run b w).1 = true ↔ ∃ modified, w.disk.modified path = .ok modified ∧
      age modified now ≤ s.maxAge * 1000 ∧ ∃ session, ((readSession path).run b w).1 = .ok session := by
  unfold isPathValidAt
  rw [Plan.bind_eq, Plan.run_file, World.fileStep]
  cases hmodified : w.disk.modified path with
  | error e => simp
  | ok modified =>
      dsimp only
      by_cases hage : age modified now > s.maxAge * 1000
      · rw [if_pos hage]
        have hold : ¬ age modified now ≤ s.maxAge * 1000 := Nat.not_le.mpr hage
        simp only [Plan.bind_eq, Plan.pure_eq, Plan.run_bind, Plan.run_done]
        simp [hold]
      · rw [if_neg hage]
        have hyoung := Nat.not_lt.mp hage
        rw [Plan.bind_eq, Plan.run_bind]
        cases hread : ((readSession path).run b w).1 <;> simp [hyoung, Except.isOk, Except.toBool]

theorem run_isValidAt_of_sameAt (h : Disk.SameAt (s.path role) w.disk w'.disk) (now : Int) :
    ((s.isValidAt role now).run b w').1 = ((s.isValidAt role now).run b w).1 := by
  rw [Bool.eq_iff_iff, isValidAt, isPathValidAt_eq_true_iff, isPathValidAt_eq_true_iff, run_readSession_of_sameAt h]
  refine exists_congr fun modified => ?_
  have hmodified (session : StoredSession) (hsession : ((readSession (s.path role)).run b w).1 = .ok session) :
      w'.disk.modified (s.path role) = w.disk.modified (s.path role) := by
    obtain ⟨c, hc, -⟩ := readSession_eq_ok_iff.mp hsession
    exact h.modified c hc
  constructor
  · rintro ⟨hm, hage, session, hsession⟩
    exact ⟨(hmodified session hsession).symm.trans hm, hage, session, hsession⟩
  · rintro ⟨hm, hage, session, hsession⟩
    exact ⟨(hmodified session hsession).trans hm, hage, session, hsession⟩

theorem run_load_eq_some_iff :
    ((s.load role).run b w).1 = some path ↔
      path = s.path role ∧ ((s.isPathValidAt path w.wall).run b w).1 = true := by
  have hvalid : ((s.isValid role).run b w).1 = ((s.isPathValidAt (s.path role) w.wall).run b w).1 := by
    rw [isValid, Plan.bind_eq, Plan.run_wallClock, isValidAt]
  rw [run_load, hvalid]
  constructor
  · intro h
    split at h
    · next hok =>
        obtain rfl := Option.some.inj h
        exact ⟨rfl, hok⟩
    · cases h
  · rintro ⟨hpath, hok⟩
    rw [hpath] at hok
    rw [if_pos hok, hpath]

/-! ### The age of a session -/

/-- The last instant at which a session that has been written at a time is valid. -/
def lastValid (s : Store) (written : Int) : Int :=
  written + s.maxAge * 1000

/-- For times that are no further apart than 64 bits of seconds, this is as many minutes later as the settings
say. -/
theorem le_lastValid_iff {written now : Int} (h : now - written ≤ (UInt64.size - 1) * 1000) :
    now ≤ s.lastValid written ↔ now ≤ written + s.settings.maxAgeMinutes * 60 * 1000 := by
  have hsize : UInt64.size = 18446744073709551616 := rfl
  simp only [lastValid, maxAge, hsize] at h ⊢
  omega

theorem age_le_iff {written now : Int} : age written now ≤ s.maxAge * 1000 ↔ now ≤ s.lastValid written := by
  unfold age lastValid
  omega

theorem le_lastValid_self (s : Store) (now : Int) : now ≤ s.lastValid now := by
  unfold lastValid
  omega

theorem run_load_of_written (hs : session.Readable) {written : Int}
    (hread : w.disk.read (s.path role) = .ok (.text session.written))
    (hmodified : w.disk.modified (s.path role) = .ok written) :
    ((s.load role).run b w).1 = some (s.path role) ↔ w.wall ≤ s.lastValid written := by
  rw [run_load_eq_some_iff, isPathValidAt_eq_true_iff, ← age_le_iff]
  obtain ⟨t, ht⟩ := hs
  have hreads : ((readSession (s.path role)).run b w).1 = .ok t :=
    readSession_eq_ok_iff.mpr ⟨_, hread, ht⟩
  simp [hmodified, hreads]

end

end Store

end SignOn
