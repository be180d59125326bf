import SignOn.Manager
import SignOn.Proofs.Stores

/-! # Making sessions, stage by stage

A call for the session of a role goes through stages, each of which decides what the next one is.

* `Manager.take` is one stage, `Manager.rest` all that is left from a stage on; `rest_eq` takes one stage
  off, and `Manager.rest .load` is the call itself.
* `Manager.visits` are the stages that a call goes through, each with the world that it starts in.  Their
  requests make up the trace of the call (`trace_ensure`), and `Manager.Leads` says on what grounds one
  comes after another (`isChain_visitsFrom`).
* `ensure_ok` is about calls that give a path: the session is there and valid. -/

namespace SignOn.Manager

open Plan (obeys_ask)

/-! ### Stages -/

/-- Where a call for a session stands: it looks for a valid session, looks up the credentials and the provider of the
role, asks the provider whether the page shows a session, signs on, or saves what the page holds. -/
inductive Stage where
  | load
  | resolve
  | check (p : Provider) (c : Credentials)
  | login (p : Provider) (c : Credentials)
  | save
  | ended (r : Except SessionError String)

/-- How many stages there are left at most. -/
def Stage.left : Stage → Nat
  | .load => 5
  | .resolve => 4
  | .check .. => 3
  | .login .. => 2
  | .save => 1
  | .ended _ => 0

variable (m : Manager) (role : String)

/-- One stage of a call; the stage behind it is what it gives. -/
def take : Stage → Plan Stage
  | .load => do
    match ← m.store.load role with
    | some path =>
      m.logger.info ("role '" ++ role ++ "' reuses " ++ path)
      return .ended (.ok path)
    | none => return .resolve
  | .resolve => do
    match ← m.resolve role with
    | .error e => return .ended (.error (.auth (.ofCredential e)))
    | .ok c =>
      match m.provider role with
      | .error i => return .ended (.error (.config i))
      | .ok p => return .check p c
  | .check p c => do
    if ← p.isSessionValid then
      m.logger.info ("page is already authenticated for role '" ++ role ++ "', saving")
      return .save
    else return .login p c
  | .login p c => do
    match ← (p.login c).run with
    | .error e => return .ended (.error (.auth e))
    | .ok r =>
      m.logger.info ("role '" ++ role ++ "' logged in via " ++ p.name ++ " in "
        ++ toString r.duration ++ "ms")
      return .save
  | .save => return .ended (← m.save role)
  | .ended r => return .ended r

/-- All that is left of a call from a stage on. -/
def rest : Stage → Plan (Except SessionError String)
  | .load => m.ensureAlone role
  | .resolve => do
    match ← m.resolve role with
    | .error e => return .error (.auth (.ofCredential e))
    | .ok c =>
      match m.provider role with
      | .error i => return .error (.config i)
      | .ok p => m.renew role p c
  | .check p c => m.renew role p c
  | .login p c => do
    match ← (p.login c).run with
    | .error e => return .error (.auth e)
    | .ok r =>
      m.logger.info ("role '" ++ role ++ "' logged in via " ++ p.name ++ " in "
        ++ toString r.duration ++ "ms")
      m.save role
  | .save => m.save role
  | .ended r => return r

/-- What is left of a call is one stage and what is left behind it. -/
theorem rest_eq (s : Stage) : m.rest role s = (m.take role s).bind (m.rest role) := by
  cases s with
  | load =>
      refine Eq.trans (congrArg (Plan.bind (m.store.load role)) ?_) (Plan.bind_assoc _ _ _).symm
      funext found
      cases found <;> rfl
  | resolve =>
      refine Eq.trans (congrArg (Plan.bind (m.resolve role)) ?_) (Plan.bind_assoc _ _ _).symm
      funext found
      cases found with
      | error e => rfl
      | ok c =>
          dsimp only
          cases m.provider role <;> rfl
  | check p c =>
      refine Eq.trans (congrArg (Plan.bind p.isSessionValid) ?_) (Plan.bind_assoc _ _ _).symm
      funext valid
      cases valid <;> rfl
  | login p c =>
      refine Eq.trans (congrArg (Plan.bind (p.login c).run) ?_) (Plan.bind_assoc _ _ _).symm
      funext result
      cases result <;> rfl
  | save =>
      refine Eq.trans ?_ (Plan.bind_assoc (m.save role) _ _).symm
      exact (Plan.bind_done (m.save role)).symm
  | ended r => rfl

variable {σ : Type} (b : PageBehaviour σ)

/-- On what grounds one stage, started in a world, leads to another. -/
inductive Leads : Stage → World σ → Stage → Prop
  | reused {w : World σ} {path : String} (h : ((m.store.load role).run b w).1 = some path) :
      Leads .load w (.ended (.ok path))
  | missing {w : World σ} (h : ((m.store.load role).run b w).1 = none) : Leads .load w .resolve
  | unresolved {w : World σ} {e : CredentialError} (h : ((m.resolve role).run b w).1 = .error e) :
      Leads .resolve w (.ended (.error (.auth (.ofCredential e))))
  | unprovided {w : World σ} {i : Inconsistency} (h : m.provider role = .error i) :
      Leads .resolve w (.ended (.error (.config i)))
  | resolved {w : World σ} {p : Provider} {c : Credentials} (h : ((m.resolve role).run b w).1 = .ok c)
      (hp : m.provider role = .ok p) : Leads .resolve w (.check p c)
  | shown {w : World σ} {p : Provider} {c : Credentials} (h : (p.isSessionValid.run b w).1 = true) :
      Leads (.check p c) w .save
  | hidden {w : World σ} {p : Provider} {c : Credentials} (h : (p.isSessionValid.run b w).1 = false) :
      Leads (.check p c) w (.login p c)
  | refused {w : World σ} {p : Provider} {c : Credentials} {e : AuthError}
      (h : ((p.login c).run.run b w).1 = .error e) : Leads (.login p c) w (.ended (.error (.auth e)))
  | loggedIn {w : World σ} {p : Provider} {c : Credentials} {r : SignedOn}
      (h : ((p.login c).run.run b w).1 = .ok r) : Leads (.login p c) w .save
  | saved {w : World σ} {r : Except SessionError String} (h : ((m.save role).run b w).1 = r) :
      Leads .save w (.ended r)

theorem leads_take {s : Stage} (hs : s.left ≠ 0) (w : World σ) :
    m.Leads role b s w ((m.take role s).run b w).1 := by
  cases s with
  | load =>
      rw [take, Plan.bind_eq, Plan.run_bind]
      cases h : ((m.store.load role).run b w).1 with
      | none => exact .missing h
      | some path => exact .reused h
  | resolve =>
      rw [take, Plan.bind_eq, Plan.run_bind]
      cases h : ((m.resolve role).run b w).1 with
      | error e => exact .unresolved h
      | ok c =>
          cases hp : m.provider role with
          | error i => exact .unprovided hp
          | ok p => exact .resolved h hp
  | check p c =>
      rw [take, Plan.bind_eq, Plan.run_bind]
      cases h : (p.isSessionValid.run b w).1 with
      | true => exact .shown h
      | false => exact .hidden h
  | login p c =>
      rw [take, Plan.bind_eq, Plan.run_bind]
      cases h : ((p.login c).run.run b w).1 with
      | error e => exact .refused h
      | ok r => exact .loggedIn h
  | save =>
      rw [take, Plan.bind_eq, Plan.run_bind]
      exact .saved rfl
  | ended r => exact absurd rfl hs

theorem Leads.left_lt {s s' : Stage} {w : World σ} (h : m.Leads role b s w s') : s'.left < s.left := by
  cases h <;> simp only [Stage.left] <;> omega

/-! ### Visits -/

/-- A stage of a call and the world that it starts in. -/
structure Visit (σ : Type) where
  stage : Stage
  world : World σ

def events (v : Visit σ) : List (Event σ) :=
  (m.take role v.stage).trace b v.world

def following (v : Visit σ) : Visit σ :=
  ⟨((m.take role v.stage).run b v.world).1, ((m.take role v.stage).run b v.world).2⟩

/-- The visits from one on to the end of the call; `n` bounds them. -/
def visitsFrom : (n : Nat) → Visit σ → List (Visit σ)
  | 0, _ => []
  | n + 1, v => if v.stage.left = 0 then [] else v :: visitsFrom n (m.following role b v)

def visits (w : World σ) : List (Visit σ) :=
  m.visitsFrom role b 5 ⟨.load, w⟩

theorem run_rest (v : Visit σ) :
    (m.rest role v.stage).run b v.world =
      (m.rest role (m.following role b v).stage).run b (m.following role b v).world := by
  rw [rest_eq, Plan.run_bind]
  rfl

theorem left_following {v : Visit σ} (hv : v.stage.left ≠ 0) :
    (m.following role b v).stage.left < v.stage.left :=
  (m.leads_take role b hv v.world).left_lt

theorem visitsFrom_of_left_eq_zero {v : Visit σ} (hv : v.stage.left = 0) (n : Nat) :
    m.visitsFrom role b n v = [] := by
  cases n with
  | zero => rfl
  | succ n => rw [visitsFrom, if_pos hv]

theorem rest_of_left_eq_zero {s : Stage} (hs : s.left = 0) : ∃ r, s = .ended r := by
  cases s with
  | ended r => exact ⟨r, rfl⟩
  | _ => cases hs

theorem trace_rest {n : Nat} {v : Visit σ} (hn : v.stage.left ≤ n) :
    (m.rest role v.stage).trace b v.world = (m.visitsFrom role b n v).flatMap (m.events role b) := by
  induction n generalizing v with
  | zero =>
      obtain ⟨r, hr⟩ := rest_of_left_eq_zero (Nat.le_zero.mp hn)
      rw [hr]
      rfl
  | succ n ih =>
      rw [visitsFrom]
      split
      · next h =>
          obtain ⟨r, hr⟩ := rest_of_left_eq_zero h
          rw [hr]
          rfl
      · next h =>
          have hlt := m.left_following role b h
          rw [rest_eq, Plan.trace_bind, List.flatMap_cons, ← ih (by omega)]
          rfl

/-- Each visit leads to the one behind it, which starts in the world that it leaves. -/
theorem isChain_visitsFrom (n : Nat) (v : Visit σ) :
    (m.visitsFrom role b n v).IsChain fun u u' =>
      m.Leads role b u.stage u.world u'.stage ∧ u'.world = ((m.take role u.stage).run b u.world).2 := by
  induction n generalizing v with
  | zero => exact .nil
  | succ n ih =>
      rw [visitsFrom]
      split
      · exact .nil
      · next h =>
          have hlead := m.leads_take role b h v.world
          cases n with
          | zero => exact .singleton v
          | succ n =>
              have ih := ih (m.following role b v)
              rw [visitsFrom] at ih ⊢
              split
              · exact .singleton v
              · next h' =>
                  rw [if_neg h'] at ih
                  exact .cons_cons ⟨hlead, rfl⟩ ih

theorem exists_getLast?_visitsFrom {n : Nat} {v : Visit σ} (hn : v.stage.left ≤ n) (hv : v.stage.left ≠ 0) :
    ∃ u r, (m.visitsFrom role b n v).getLast? = some u ∧ u.stage.left ≤ v.stage.left ∧
      m.Leads role b u.stage u.world (.ended r) ∧
      (m.rest role v.stage).run b v.world = (r, ((m.take role u.stage).run b u.world).2) := by
  induction n generalizing v with
  | zero => exact absurd (Nat.le_zero.mp hn) hv
  | succ n ih =>
      have hlt := m.left_following role b hv
      rw [visitsFrom, if_neg hv, run_rest]
      by_cases h : (m.following role b v).stage.left = 0
      · obtain ⟨r, hr⟩ := rest_of_left_eq_zero h
        have hlead := m.leads_take role b hv v.world
        refine ⟨v, r, ?_, Nat.le_refl _, hr ▸ hlead, ?_⟩
        · rw [visitsFrom_of_left_eq_zero m role b h]
          rfl
        · rw [hr]
          rfl
      · obtain ⟨u, r, hlast, hle, hlead, hrun⟩ := ih (by omega) h
        refine ⟨u, r, ?_, by omega, hlead, hrun⟩
        rw [List.getLast?_cons, hlast]
        rfl

/-! ### Calls -/

theorem run_exclusively {α : Type} (p : Plan α) (w : World σ) :
    (exclusively role p).run b w = p.run b w :=
  Plan.run_bind b p (fun a => (Plan.request (.release role)).bind fun _ => .done a) w

theorem trace_exclusively {α : Type} (p : Plan α) (w : World σ) :
    (exclusively role p).trace b w =
      ⟨w, .acquire role, some ()⟩ :: p.trace b w ++ [⟨(p.run b w).2, .release role, some ()⟩] :=
  congrArg (List.cons _)
    (Plan.trace_bind b p (fun a => (Plan.request (.release role)).bind fun _ => .done a) w)

theorem run_ensure (w : World σ) : (m.ensure role).run b w = (m.rest role .load).run b w := by
  rw [ensure, run_exclusively, rest]

/-- The requests of a call are those of its visits, with the lock around them. -/
theorem trace_ensure (w : World σ) :
    (m.ensure role).trace b w =
      ⟨w, .acquire role, some ()⟩ :: (m.visits role b w).flatMap (m.events role b) ++
        [⟨((m.ensure role).run b w).2, .release role, some ()⟩] := by
  have hrest := m.trace_rest role b (n := 5) (v := ⟨.load, w⟩) (Nat.le_refl _)
  rw [rest] at hrest
  rw [ensure, trace_exclusively, hrest, run_exclusively, visits]

theorem exists_getLast?_visits (w : World σ) :
    ∃ u r, (m.visits role b w).getLast? = some u ∧ m.Leads role b u.stage u.world (.ended r) ∧
      (m.ensure role).run b w = (r, ((m.take role u.stage).run b u.world).2) := by
  obtain ⟨u, r, hlast, -, hlead, hrun⟩ :=
    m.exists_getLast?_visitsFrom role b (n := 5) (v := ⟨.load, w⟩) (Nat.le_refl _) (by simp [Stage.left])
  exact ⟨u, r, hlast, hlead, (m.run_ensure role b w).trans hrun⟩

theorem left_lt_of_mem_visitsFrom {n : Nat} {v u : Visit σ} (hu : u ∈ m.visitsFrom role b n v) :
    u = v ∨ u.stage.left < v.stage.left := by
  induction n generalizing v with
  | zero => cases hu
  | succ n ih =>
      rw [visitsFrom] at hu
      split at hu
      · cases hu
      · next hv =>
          have hlt := m.left_following role b hv
          rcases List.mem_cons.mp hu with rfl | hu
          · exact .inl rfl
          · rcases ih hu with rfl | h
            · exact .inr hlt
            · exact .inr (by omega)

/-- What a stage hands on to the next one holds of all visits behind one that it holds of. -/
theorem invariant_of_mem_visitsFrom {I : Visit σ → Prop}
    (hI : ∀ v, v.stage.left ≠ 0 → I v → I (m.following role b v)) {n : Nat} {v u : Visit σ}
    (hu : u ∈ m.visitsFrom role b n v) (hv : I v) : I u := by
  induction n generalizing v with
  | zero => cases hu
  | succ n ih =>
      rw [visitsFrom] at hu
      split at hu
      · cases hu
      · next hleft =>
          rcases List.mem_cons.mp hu with rfl | hu
          · exact hv
          · exact ih hu (hI v hleft hv)

theorem linkFree_of_mem_visitsFrom {n : Nat} {v u : Visit σ} (hu : u ∈ m.visitsFrom role b n v)
    (hv : v.world.disk.tree.LinkFree) : u.world.disk.tree.LinkFree :=
  m.invariant_of_mem_visitsFrom role b (I := fun v => v.world.disk.tree.LinkFree)
    (fun v _ hv => Plan.linkFree_run b (m.take role v.stage) hv) hu hv

/-! ### Saving -/

theorem run_save (v : World σ) : (m.save role).run b v =
    (((m.store.save role).run b v).1.mapError .storage, ((m.store.save role).run b v).2) := by
  rw [save, Plan.bind_eq, Plan.run_bind]
  rfl

theorem run_take_save (v : World σ) : (m.take role .save).run b v =
    (.ended (((m.store.save role).run b v).1.mapError .storage), ((m.store.save role).run b v).2) := by
  rw [take, Plan.bind_eq, Plan.run_bind, run_save]
  rfl

/-- A session that has been saved is what the page has given out; it is valid and is read as it is. -/
theorem valid_of_run_save {v : World σ} {path : String} (hv : v.disk.tree.LinkFree)
    (hpage : ∀ session, (b.respond .storageState v.page v.now).outcome = .ok session → session.Exportable)
    (h : ((m.save role).run b v).1 = .ok path) :
    path = m.store.path role ∧
      ((m.store.isValid role).run b ((m.take role .save).run b v).2).1 = true ∧
      ∃ session, ((m.store.read role).run b ((m.take role .save).run b v).2).1 = .ok session ∧
        ⟨v, .page .storageState, some (.ok session)⟩ ∈ m.events role b ⟨.save, v⟩ := by
  rw [run_save] at h
  rw [run_take_save]
  cases hstore : (m.store.save role).run b v with
  | mk result after =>
      rw [hstore] at h
      cases result with
      | error e => cases h
      | ok path' =>
          obtain rfl : path' = path := Except.ok.inj h
          obtain ⟨session, hexport, hpath, hvalid, hread⟩ := Store.valid_of_run_save hv hpage hstore
          refine ⟨hpath, hvalid, session, hread, ?_⟩
          have hevent := hexport ▸ m.store.mem_trace_save (b := b) role v
          rw [events, take, Plan.bind_eq, Plan.trace_bind, save, Plan.bind_eq, Plan.trace_bind]
          exact List.mem_append_left _ (List.mem_append_left _ hevent)

/-! ### Calls that give a path -/

theorem visits_of_load {w : World σ} {path : String}
    (h : ((m.store.load role).run b w).1 = some path) : m.visits role b w = [⟨.load, w⟩] := by
  have hended : (m.following role b ⟨.load, w⟩).stage = .ended (.ok path) := by
    rw [following, take, Plan.bind_eq, Plan.run_bind, h]
    rfl
  rw [visits, visitsFrom, if_neg (by simp [Stage.left]), visitsFrom, hended]
  rfl

theorem obeys_take_load : (m.take role .load).Obeys Request.LooksAtFiles fun _ => True := by
  refine (m.store.obeys_load role).bind fun found _ => ?_
  cases found with
  | none => exact trivial
  | some path => exact obeys_ask trivial fun _ => trivial

theorem looksAtFiles_of_load {w : World σ} {path : String}
    (h : ((m.store.load role).run b w).1 = some path) {e : Event σ}
    (he : e ∈ (m.ensure role).trace b w) :
    e.request = .acquire role ∨ e.request.LooksAtFiles ∨ e.request = .release role := by
  rw [trace_ensure, m.visits_of_load role b h, List.flatMap_singleton] at he
  rcases List.mem_append.mp he with he | he
  · rcases List.mem_cons.mp he with rfl | he
    · exact .inl rfl
    · exact .inr (.inl ((m.obeys_take_load role).of_mem_trace b he))
  · rw [List.mem_singleton.mp he]
    exact .inr (.inr rfl)

variable {m role b}

/-- **A call that gives a path.**  It is the path of the role, and there is a valid session at it that can
be read: either the one that was valid before, which nothing has been asked or changed for, or the one that
the page has given out during the call. -/
theorem ensure_ok {w : World σ} {path : String} (hw : w.disk.tree.LinkFree)
    (hpage : ∀ page now session, (b.respond .storageState page now).outcome = .ok session →
      session.Exportable)
    (h : ((m.ensure role).run b w).1 = .ok path) :
    path = m.store.path role ∧
      ((m.store.isValid role).run b ((m.ensure role).run b w).2).1 = true ∧
      ∃ session, ((m.store.read role).run b ((m.ensure role).run b w).2).1 = .ok session ∧
        ((((m.store.isValid role).run b w).1 = true ∧ ((m.store.read role).run b w).1 = .ok session ∧
            ((m.ensure role).run b w).2.disk = w.disk ∧ m.visits role b w = [⟨.load, w⟩] ∧
            ∀ e ∈ (m.ensure role).trace b w,
              e.request = .acquire role ∨ e.request.LooksAtFiles ∨ e.request = .release role) ∨
          ∃ v, (m.visits role b w).getLast? = some ⟨.save, v⟩ ∧
            ⟨v, .page .storageState, some (.ok session)⟩ ∈ (m.ensure role).trace b w) := by
  obtain ⟨⟨stage, v⟩, r, hlast, hlead, hrun⟩ := m.exists_getLast?_visits role b w
  have hmem := List.mem_of_getLast? hlast
  rw [hrun] at h ⊢
  obtain rfl : r = .ok path := h
  dsimp only at hlead hrun ⊢
  cases hlead with
  | reused hload =>
      obtain rfl : v = w := by
        rcases m.left_lt_of_mem_visitsFrom role b hmem with heq | hlt
        · exact congrArg Visit.world heq
        · exact absurd hlt (by simp [Stage.left])
      have hview := (Store.looks_of_obeys (m.obeys_take_load role)).sameView_run b v
      obtain ⟨hpath, hvalid⟩ := m.store.valid_of_run_load b role v hload
      obtain ⟨session, hread⟩ := m.store.exists_read_of_isValid b role v hvalid
      have hvalid' := (Store.looks_of_obeys (m.store.obeys_isValid role)).run_congr b hview
      have hread' := (Store.looks_of_obeys (m.store.obeys_read role)).run_congr b hview
      refine ⟨hpath, hvalid'.trans hvalid, session, hread'.trans hread, .inl ⟨hvalid, hread, hview.disk, ?_, ?_⟩⟩
      · exact m.visits_of_load role b hload
      · exact fun e he => m.looksAtFiles_of_load role b hload he
  | saved hsave =>
      have hfree := m.linkFree_of_mem_visitsFrom role b hmem hw
      obtain ⟨hpath, hvalid, session, hread, hevent⟩ :=
        m.valid_of_run_save role b hfree (fun session => hpage _ _ session) hsave
      refine ⟨hpath, hvalid, session, hread, .inr ⟨v, hlast, ?_⟩⟩
      rw [trace_ensure]
      exact List.mem_append_left _ (List.mem_cons_of_mem _ (List.mem_flatMap.mpr ⟨_, hmem, hevent⟩))

/-- A page that shows the application. -/
def homePage : PageBehaviour Unit where
  url _ _ := "https://app.example/home"
  respond c _ _ :=
    { duration := 0
      outcome := match c with
        | .isVisible _ => .ok true
        | .storageState => .ok {}
        | _ => .error (.other "unexpected")
      page := ()
      abandoned := fun _ => () }

def homeManager : Manager where
  settings :=
    { provider := .form
      roles := [("admin", { credentials := ⟨"ADMIN_USER", "ADMIN_PASSWORD"⟩ })]
      form := some { loginUrl := "https://app.example/login", success := { selector := some "#home" } } }

/-- A world without files, and with the credentials of the role. -/
def homeWorld : World Unit where
  page := ()
  epoch := 1700000000000
  environment name := if name = "ADMIN_USER" then some "ada" else some "secret"

theorem linkFree_homeWorld : homeWorld.disk.tree.LinkFree := by
  intro p target h
  by_cases hp : p = []
  · rw [hp] at h
    cases h
  · rw [Files.Tree.get?_of_ne _ hp] at h
    cases h

/-- A session with a cookie and an origin. -/
def memberSession : StoredSession where
  cookies := .ofList [Json.ofMembers [("name", .string "sid"), ("value", .string "42")]]
  origins := .ofList [Json.ofMembers [("origin", .string "https://app.example")]]

theorem exportable_memberSession : memberSession.Exportable where
  cookies := by
    have hkeys : "name" < "value" := by decide
    refine ⟨⟨fun m hm => ?_, trivial, (fun m hm => nomatch hm), trivial, trivial⟩, trivial⟩
    rw [List.mem_singleton.mp hm]
    exact hkeys
  origins := ⟨⟨(fun m hm => nomatch hm), trivial, trivial⟩, trivial⟩
  depth := by decide

/-- A page that shows the application to a member. -/
def memberPage : PageBehaviour Unit where
  url _ _ := "https://app.example/home"
  respond c _ _ :=
    { duration := 0
      outcome := match c with
        | .isVisible _ => .ok true
        | .storageState => .ok memberSession
        | _ => .error (.other "unexpected")
      page := ()
      abandoned := fun _ => () }

/-- Where the page shows the application, its session is saved and can be read. -/
theorem ensure_ok_memberPage :
    ((homeManager.store.isValid "admin").run memberPage
        ((homeManager.ensure "admin").run memberPage homeWorld).2).1 = true ∧
      ∃ session, ((homeManager.store.read "admin").run memberPage
          ((homeManager.ensure "admin").run memberPage homeWorld).2).1 = .ok session ∧
        ∃ v, ⟨v, .page .storageState, some (.ok session)⟩ ∈
          (homeManager.ensure "admin").trace memberPage homeWorld := by
  have hrun : ((homeManager.ensure "admin").run memberPage homeWorld).1 = .ok ".auth-states/admin.json" := rfl
  have hexports : ∀ page now session, (memberPage.respond .storageState page now).outcome = .ok session →
      session.Exportable := by
    intro page now session h
    obtain rfl : memberSession = session := Except.ok.inj h
    exact exportable_memberSession
  obtain ⟨-, hvalid, session, hread, ⟨hfound, -⟩ | ⟨v, -, hexport⟩⟩ := ensure_ok linkFree_homeWorld hexports hrun
  · have hnone : ((homeManager.store.isValid "admin").run memberPage homeWorld).1 = false := by decide +kernel
    rw [hnone] at hfound
    cases hfound
  · exact ⟨hvalid, session, hread, v, hexport⟩

end SignOn.Manager
