import SignOn.Proofs.Providers
import SignOn.Proofs.Sessions

/-! # What a call for a session does, and what it leaves

* `Manager.LeavesFiles` is what is asked of handlers and providers that the application supplies.
* Up to the last stage of a call the files stay as they are (`disk_of_mem_visitsFrom`); the first two
  stages only look (`looks_take`).
* `ensure_effects` is about all calls: what comes before what, and what a call that fails leaves behind. -/

namespace SignOn.Manager

/-- The handlers and the providers that have been registered change no file. -/
structure LeavesFiles (m : Manager) : Prop where
  handlers : ∀ h ∈ m.registry.handlers, h.LeavesFiles
  providers : ∀ p ∈ m.providers, p.LeavesFiles

variable {m : Manager} {role : String}

theorem LeavesFiles.provider (hm : m.LeavesFiles) {p : Provider} (hp : m.provider role = .ok p) :
    p.LeavesFiles := by
  unfold Manager.provider at hp
  split at hp
  · next registered hfind =>
      exact Except.ok.inj hp ▸ hm.providers registered (List.mem_of_find?_eq_some hfind)
  · exact Provider.leavesFiles_ofSettings hm.handlers hp

/-! ### Stages -/

theorem looks_nonBlankEnv (name : String) : (Plan.nonBlankEnv name).Obeys Request.Looks fun _ => True :=
  Plan.obeys_ask trivial fun _ => trivial

theorem looks_resolve : (m.resolve role).Obeys Request.Looks fun _ => True := by
  unfold resolve Credentials.resolve
  split
  · exact trivial
  · refine (looks_nonBlankEnv _).bind fun username _ => ?_
    refine (looks_nonBlankEnv _).bind fun password _ => ?_
    split
    · exact trivial
    · exact Plan.obeys_ask trivial fun _ => trivial

/-- To find the session or the credentials of a role, nothing is asked of the page. -/
theorem looks_take {s : Stage} (hs : s = .load ∨ s = .resolve) :
    (m.take role s).Obeys Request.Looks fun _ => True := by
  rcases hs with rfl | rfl
  · exact Store.looks_of_obeys (m.obeys_take_load role)
  · refine looks_resolve.bind fun r _ => ?_
    cases r with
    | error e => exact trivial
    | ok c =>
        dsimp only
        split <;> exact trivial

/-- The provider of the stage is the one of the role. -/
def Stage.Provided (m : Manager) (role : String) : Stage → Prop
  | .check p _ | .login p _ => m.provider role = .ok p
  | _ => True

theorem leavesFiles_take (hm : m.LeavesFiles) {s : Stage} (hs : s.Provided m role) (hsave : s ≠ .save) :
    (m.take role s).Obeys Request.LeavesFiles fun _ => True := by
  cases s with
  | load => exact (looks_take (.inl rfl)).mono (fun _ => Request.Looks.leavesFiles) fun _ => id
  | resolve => exact (looks_take (.inr rfl)).mono (fun _ => Request.Looks.leavesFiles) fun _ => id
  | check p c =>
      refine (hm.provider hs).isSessionValid.bind fun valid _ => ?_
      cases valid with
      | true => exact Plan.obeys_ask trivial fun _ => trivial
      | false => exact trivial
  | login p c =>
      refine Plan.Obeys.bind ((hm.provider hs).login c) fun r _ => ?_
      cases r with
      | error e => exact trivial
      | ok r => exact Plan.obeys_ask trivial fun _ => trivial
  | save => exact absurd rfl hsave
  | ended r => exact trivial

variable {σ : Type} {b : PageBehaviour σ}

theorem Leads.provided {s s' : Stage} {w : World σ} (h : m.Leads role b s w s') (hs : s.Provided m role) :
    s'.Provided m role := by
  cases h with
  | resolved _ hp => exact hp
  | hidden _ => exact hs
  | _ => exact trivial

/-- Before each visit the files are as they were at the start. -/
theorem disk_of_mem_visitsFrom (hm : m.LeavesFiles) {n : Nat} {v u : Visit σ} (hv : v.stage.Provided m role)
    (hu : u ∈ m.visitsFrom role b n v) : u.world.disk = v.world.disk ∧ u.stage.Provided m role := by
  induction n generalizing v with
  | zero => cases hu
  | succ n ih =>
      rw [visitsFrom] at hu
      split at hu
      · cases hu
      · next hleft =>
          rcases List.mem_cons.mp hu with rfl | hu
          · exact ⟨rfl, hv⟩
          · have hlead := m.leads_take role b hleft v.world
            obtain ⟨hdisk, hprovided⟩ := ih (hlead.provided hv) hu
            by_cases hsave : v.stage = .save
            · have hended := m.left_following role b hleft
              rw [hsave] at hended
              rw [visitsFrom_of_left_eq_zero m role b (Nat.lt_one_iff.mp hended)] at hu
              cases hu
            · have htake := (leavesFiles_take hm hv hsave).disk_run b v.world
              exact ⟨hdisk.trans htake, hprovided⟩

theorem keepsSessions_take_save {v : World σ} {e : SessionError} (hv : v.disk.tree.LinkFree)
    (h : ((m.save role).run b v).1 = .error e) :
    KeepsSessions v.disk ((m.take role .save).run b v).2.disk := by
  rw [run_save] at h
  rw [run_take_save]
  cases hstore : (m.store.save role).run b v with
  | mk result after =>
      rw [hstore] at h
      cases result with
      | ok path => cases h
      | error e => exact Store.keepsSessions_of_run_save hv hstore

/-- A call that fails changes no session, and no file at all but where it fails to save one. -/
theorem keepsSessions_of_error (hm : m.LeavesFiles) {w : World σ} {e : SessionError}
    (hw : w.disk.tree.LinkFree) (h : ((m.ensure role).run b w).1 = .error e) :
    KeepsSessions w.disk ((m.ensure role).run b w).2.disk ∧
      (((m.ensure role).run b w).2.disk = w.disk ∨
        ∃ v, (m.visits role b w).getLast? = some ⟨.save, v⟩) := by
  obtain ⟨⟨stage, v⟩, r, hlast, hlead, hrun⟩ := m.exists_getLast?_visits role b w
  have hmem := List.mem_of_getLast? hlast
  have hfree := m.linkFree_of_mem_visitsFrom role b hmem hw
  obtain ⟨hdisk, hprovided⟩ := disk_of_mem_visitsFrom hm (v := ⟨.load, w⟩) trivial hmem
  rw [hrun] at h ⊢
  obtain rfl : r = .error e := h
  dsimp only at hlead hdisk hprovided hfree ⊢
  rw [← hdisk]
  by_cases hsave : stage = .save
  · obtain rfl := hsave
    cases hlead with
    | saved hfailed => exact ⟨keepsSessions_take_save hfree hfailed, .inr ⟨v, hlast⟩⟩
  · have htake := (leavesFiles_take hm hprovided hsave).disk_run b v
    rw [htake]
    exact ⟨.refl v.disk, .inl rfl⟩

/-- **The effects of a call.**  Its requests are those of the stages it goes through, each entered on the
grounds that `Leads` gives: the page and the provider come into play only where no valid session has been found
and the credentials and the provider of the role are there, a login only where the page shows no session, and a
save only where the page shows one or the login has succeeded.  A call that fails leaves every session as it
was, and all files unless it fails to save. -/
theorem ensure_effects (hm : m.LeavesFiles) (w : World σ) (hw : w.disk.tree.LinkFree) :
    (m.ensure role).trace b w =
        ⟨w, .acquire role, some ()⟩ :: (m.visits role b w).flatMap (m.events role b) ++
          [⟨((m.ensure role).run b w).2, .release role, some ()⟩] ∧
      (m.visits role b w).head? = some ⟨.load, w⟩ ∧
      ((m.visits role b w).IsChain fun u u' =>
        m.Leads role b u.stage u.world u'.stage ∧ u'.world = ((m.take role u.stage).run b u.world).2) ∧
      (∀ u ∈ m.visits role b w, u.stage = .load ∨ u.stage = .resolve →
        ∀ e ∈ m.events role b u, e.request.Looks) ∧
      ∀ e, ((m.ensure role).run b w).1 = .error e →
        KeepsSessions w.disk ((m.ensure role).run b w).2.disk ∧
          (∀ (s : Store) role' c modified, w.disk.HasFile (s.path role') c modified →
            ((m.ensure role).run b w).2.disk.HasFile (s.path role') c modified) ∧
          (((m.ensure role).run b w).2.disk = w.disk ∨
            ∃ v, (m.visits role b w).getLast? = some ⟨.save, v⟩) := by
  refine ⟨m.trace_ensure role b w, ?_, m.isChain_visitsFrom role b 5 _, ?_, ?_⟩
  · rw [visits, visitsFrom, if_neg (by simp [Stage.left])]
    rfl
  · intro u hu hstage e he
    exact (looks_take hstage).of_mem_trace b he
  · intro e he
    obtain ⟨hkeeps, hplace⟩ := keepsSessions_of_error hm hw he
    have hfree := Plan.linkFree_run b (m.ensure role) hw
    refine ⟨hkeeps, fun s role' c modified hfile => ?_, hplace⟩
    exact Store.hasFile_of_keepsSessions hkeeps hw hfree hfile

/-- A world with the session of one role, and with a directory at the path of the other one. -/
def blockedWorld : World Unit :=
  { homeWorld with
    disk.tree :=
      [([".auth-states"], .directory 0), ([".auth-states", "admin.json"], .directory 0),
        ([".auth-states", "viewer.json"], .file (.text (StoredSession.written {})) 0)] }

/-- A call that fails to save leaves the session of the other role. -/
theorem ensure_effects_blockedWorld :
    homeManager.LeavesFiles ∧ blockedWorld.disk.tree.LinkFree ∧
      (∃ e, ((homeManager.ensure "admin").run homePage blockedWorld).1 = .error e) ∧
      ((homeManager.ensure "admin").run homePage blockedWorld).2.disk.HasFile ".auth-states/viewer.json"
        (.text (StoredSession.written {})) 0 ∧
      ∃ v, (homeManager.visits "admin" homePage blockedWorld).getLast? = some ⟨.save, v⟩ := by
  have hleaves : homeManager.LeavesFiles :=
    ⟨fun _ hh => Idp.leavesFiles_of_builtIn hh, fun _ hp => (nomatch hp)⟩
  have hfree : blockedWorld.disk.tree.LinkFree := by
    apply Files.Tree.linkFree_of_forall
    simp [blockedWorld]
  have hfailed : ((homeManager.ensure "admin").run homePage blockedWorld).1.isOk = false := by decide +kernel
  obtain ⟨e, hrun⟩ : ∃ e, ((homeManager.ensure "admin").run homePage blockedWorld).1 = .error e := by
    cases hrun : ((homeManager.ensure "admin").run homePage blockedWorld).1 with
    | error e => exact ⟨e, rfl⟩
    | ok path =>
        rw [hrun] at hfailed
        cases hfailed
  obtain ⟨-, -, -, -, hfails⟩ := ensure_effects hleaves blockedWorld hfree
  obtain ⟨-, hfiles, hplace⟩ := hfails e hrun
  have hfile : blockedWorld.disk.HasFile ".auth-states/viewer.json" (.text (StoredSession.written {})) 0 :=
    ⟨[".auth-states", "viewer.json"], rfl, rfl⟩
  refine ⟨hleaves, hfree, ⟨e, hrun⟩, hfiles homeManager.store "viewer" _ _ hfile, hplace.resolve_left fun hsame => ?_⟩
  have hbeside : (((homeManager.ensure "admin").run homePage blockedWorld).2.disk.tree.get?
      [".auth-states", "admin.json.tmp"]).isSome = true := by decide +kernel
  rw [hsame] at hbeside
  exact absurd hbeside (by decide +kernel)

end SignOn.Manager
