import SignOn.Proofs.Findings
import SignOn.Proofs.Listing

/-! # What the observers of the store say of a session

Whether a session is valid is asked in four ways: for a time, for the present, by loading it, and by listing all of
them.  `observers_agree` says that these give the same answer, and that the answer is about the file at the path of
the role: its age, and whether it can be read. -/

namespace SignOn.Store

open Files (Disk)

section

variable {σ : Type} {b : PageBehaviour σ} {s : Store} {role : String} {w w' : World σ}

theorem exists_run_read_iff :
    (∃ session, ((s.read role).run b w).1 = .ok session) ↔
      ∃ session, ((readSession (s.path role)).run b w).1 = .ok session := by
  rw [Store.read, Plan.bind_eq, Plan.run_bind]
  cases ((readSession (s.path role)).run b w).1 with
  | ok session => simp
  | error failure => simp

/-- A session is valid at a time if its file is there, not older than the limit, and can be read. -/
theorem run_isValidAt_eq_true_iff {now : Int} :
    ((s.isValidAt role now).run b w).1 = true ↔ ∃ modified, w.disk.modified (s.path role) = .ok modified ∧
      age modified now ≤ s.maxAge * 1000 ∧ ∃ session, ((s.read role).run b w).1 = .ok session := by
  rw [isValidAt, isPathValidAt_eq_true_iff, exists_run_read_iff]

theorem run_isValid : ((s.isValid role).run b w).1 = ((s.isValidAt role w.wall).run b w).1 := by
  rw [isValid, Plan.bind_eq, Plan.run_wallClock]

theorem age_mono {modified earlier later : Int} (h : earlier ≤ later) : age modified earlier ≤ age modified later := by
  unfold age
  omega

/-- A session that is valid at a time has been so before, as long as its file is the same. -/
theorem run_isValidAt_of_le {earlier later : Int} (hsame : Disk.SameAt (s.path role) w.disk w'.disk)
    (hle : earlier ≤ later) (h : ((s.isValidAt role later).run b w').1 = true) :
    ((s.isValidAt role earlier).run b w).1 = true := by
  rw [run_isValidAt_of_sameAt hsame] at h
  obtain ⟨modified, hmodified, hyoung, hread⟩ := run_isValidAt_eq_true_iff.mp h
  exact run_isValidAt_eq_true_iff.mpr ⟨modified, hmodified, (age_mono hle).trans hyoung, hread⟩

theorem isValid_of_run_stored? {now : Int} {path : String} {e : Stored}
    (h : ((s.stored? now path).run b w).1 = some e) : e.isValid = ((s.isPathValidAt path now).run b w).1 := by
  rw [stored?] at h
  split at h
  · cases h
  · rw [Plan.bind_eq, Plan.run_file, World.fileStep] at h
    split at h
    · cases h
    · rw [Plan.bind_eq, Plan.run_bind] at h
      obtain rfl := Option.some.inj h
      rfl

end

/-- **The observers of the store agree.**  A session is valid at a time if its file is there, if it is at most as many
minutes old as the settings say (as far as 64 bits of seconds reach; a file from the future is not old at all), and if
it can be read.  It is loaded if it is valid at the present time, and then from the path of the role; and if it is
listed, then as valid or not as it is at that time.  As long as its file is the same, a session that is valid at a time
has been valid at all times before. -/
theorem observers_agree {σ : Type} (b : PageBehaviour σ) (s : Store) (role : String) (w : World σ) :
    (∀ now, ((s.isValidAt role now).run b w).1 = true ↔
        ∃ modified, w.disk.modified (s.path role) = .ok modified ∧
          (now - modified).toNat ≤ min (s.settings.maxAgeMinutes * 60) (UInt64.size - 1) * 1000 ∧
          ∃ session, ((s.read role).run b w).1 = .ok session) ∧
      ((s.isValid role).run b w).1 = ((s.isValidAt role w.wall).run b w).1 ∧
      (∀ path, ((s.load role).run b w).1 = some path ↔
        path = s.path role ∧ ((s.isValidAt role w.wall).run b w).1 = true) ∧
      (∀ e ∈ ((s.list).run b w).1, e.path = s.path role → e.isValid = ((s.isValidAt role w.wall).run b w).1) ∧
      ∀ (w' : World σ) (earlier later : Int), Disk.SameAt (s.path role) w.disk w'.disk → earlier ≤ later →
        ((s.isValidAt role later).run b w').1 = true → ((s.isValidAt role earlier).run b w).1 = true := by
  refine ⟨fun now => run_isValidAt_eq_true_iff, run_isValid, fun path => ?_, fun e he hpath => ?_, ?_⟩
  · rw [run_load_eq_some_iff, isValidAt]
    exact and_congr_right fun hpath => by rw [hpath]
  · obtain ⟨names, -, name, -, -, hstored⟩ := mem_run_list.mp he
    rw [isValid_of_run_stored? hstored, ← path_of_run_stored? hstored, hpath, isValidAt]
  · exact fun w' earlier later hsame hle hvalid => run_isValidAt_of_le hsame hle hvalid

/-- The session on the shelf is valid for an hour, and is loaded. -/
theorem observers_agree_shelf :
    (∀ now ≤ 3600000, (((Store.mk {} none .standard).isValidAt "viewer" now).run Manager.homePage
        (shelf {})).1 = true) ∧
      (((Store.mk {} none .standard).load "viewer").run Manager.homePage (shelf {})).1 =
        some ((Store.mk {} none .standard).path "viewer") := by
  have hexportable : StoredSession.Exportable {} := ⟨trivial, trivial, by decide⟩
  have hfile : (shelf {}).disk.HasFile ((Store.mk {} none .standard).path "viewer")
      (.text (StoredSession.written {})) 0 := ⟨_, rfl, rfl⟩
  obtain ⟨hvalid, -, hload, -, hbefore⟩ :=
    observers_agree Manager.homePage (Store.mk {} none .standard) "viewer" (shelf {})
  have hlast := (hvalid 3600000).mpr ⟨0, hfile.modified, by decide, _, read_of_hasFile hexportable hfile⟩
  have hall := fun now hnow => hbefore (shelf {}) now 3600000 (.refl _ _) hnow hlast
  exact ⟨hall, (hload _).mpr ⟨rfl, hall 0 (by decide)⟩⟩

end SignOn.Store
