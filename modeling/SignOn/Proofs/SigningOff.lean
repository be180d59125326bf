import SignOn.Proofs.Findings
import SignOn.Proofs.Removals
import SignOn.Proofs.SessionEffects
import SignOn.Provider.Custom

/-! # Signing off

* Signing off through a provider of the settings changes no file (`Provider.leavesFiles_logout_ofSettings`);
  `Manager.SignsOffAside` asks the same of the providers that have been registered.
* `Store.run_clearRole_cases` says what becomes of the session that is taken away: behind it nothing is found at its
  path, and no other place has changed.
* `finish_effects` is about all calls that end a session: what comes before the session is taken away, what is found
  afterwards, and that a call that fails leaves all files as they were. -/

namespace SignOn

open Files (Disk Place)

/-! ### Providers -/

namespace Provider

open Attempt (LeavesFiles leavesFiles_page leavesFiles_page_bind)

variable {role : String} {retry : RetryPolicy} {logger : Logger}

theorem leavesFiles_oidcLogout (s : OidcSettings) : (oidcLogout s role logger).LeavesFiles := by
  unfold oidcLogout
  cases s.logout with
  | none => exact leavesFiles_page
  | some l =>
      refine Attempt.obeys_request_bind trivial fun _ => ?_
      refine leavesFiles_page_bind fun _ => ?_
      refine Attempt.obeys_ite ?_ leavesFiles_page
      refine Attempt.obeys_request_bind trivial fun r => ?_
      cases r with
      | ok u => exact leavesFiles_page
      | error e => exact Attempt.obeys_request_bind trivial fun _ => leavesFiles_page

theorem leavesFiles_visitCandidates (s : FormSettings) (addresses : List String) :
    (visitCandidates s role logger addresses).LeavesFiles := by
  induction addresses with
  | nil => exact Attempt.obeys_request_bind trivial fun _ => leavesFiles_page
  | cons address rest ih =>
      rw [visitCandidates]
      refine Attempt.obeys_request_bind trivial fun r => ?_
      cases r with
      | error e => exact Attempt.obeys_request_bind trivial fun _ => ih
      | ok u =>
          refine Attempt.obeys_of_bind (leavesFiles_sessionMatches s.success s.probe) fun shown => ?_
          cases shown with
          | false => exact Attempt.obeys_request_bind trivial fun _ => Attempt.obeys_pure _
          | true => exact Attempt.obeys_request_bind trivial fun _ => ih

theorem leavesFiles_formLogout (s : FormSettings) : (formLogout s role logger).LeavesFiles := by
  unfold formLogout
  split
  · exact leavesFiles_visitCandidates s (logoutCandidates s)
  · have hcookies : (do
        Attempt.of (logger.info ("clearing cookies to log out role '" ++ role ++ "'"))
        Attempt.page role .callback .clearCookies : Attempt Unit).LeavesFiles :=
      Attempt.obeys_request_bind trivial fun _ => leavesFiles_page
    cases s.logoutUrl with
    | none => exact hcookies
    | some address =>
        refine Attempt.obeys_request_bind trivial fun r => ?_
        cases r with
        | ok u => exact hcookies
        | error e => exact Attempt.obeys_request_bind trivial fun _ => hcookies

/-- Signing off through the provider that the settings ask for changes no file. -/
theorem leavesFiles_logout_ofSettings {s : Settings} {registry : Idp.Registry} {p : Provider}
    (hp : ofSettings s role registry logger = .ok p) : p.logout.LeavesFiles := by
  unfold ofSettings at hp
  split at hp
  · split at hp
    · obtain rfl := Except.ok.inj hp
      exact leavesFiles_oidcLogout _
    · cases hp
  · split at hp
    · obtain rfl := Except.ok.inj hp
      exact leavesFiles_formLogout _
    · cases hp
  · split at hp
    · obtain rfl := Except.ok.inj hp
      exact leavesFiles_page_bind fun _ => Attempt.obeys_pure _
    · cases hp
  · cases hp

/-- A flow of the application's own signs off without changing files if its sign-off does. -/
theorem leavesFiles_logout_custom {f : CustomFlow} (hf : f.logout.LeavesFiles) :
    (custom f role retry logger).logout.LeavesFiles :=
  Attempt.obeys_request_bind trivial fun _ => hf

end Provider

/-! ### Taking a session away -/

namespace Store

variable {σ : Type} {b : PageBehaviour σ} {s : Store} {role : String} {w : World σ}

/-- Nothing is found for a role: what is read of it fails as missing, and no session is loaded. -/
structure Gone (s : Store) (role : String) (b : PageBehaviour σ) (w : World σ) : Prop where
  read : ∃ e, ((s.read role).run b w).1 = .error e ∧ e.cause = .missing
  load : ((s.load role).run b w).1 = none

theorem gone_of_notFound (h : w.disk.read (s.path role) = .error .notFound) : s.Gone role b w := by
  constructor
  · exact run_read_of_notFound h
  · cases hload : ((s.load role).run b w).1 with
    | none => rfl
    | some path =>
        obtain ⟨hpath, hvalid⟩ := run_load_eq_some_iff.mp hload
        obtain ⟨modified, -, -, session, hread⟩ := isPathValidAt_eq_true_iff.mp hvalid
        obtain ⟨c, hc, -⟩ := readSession_eq_ok_iff.mp hread
        rw [hpath, h] at hc
        cases hc

/-- Either the session could not be taken away, and all files are as they were; or nothing is found for the role any
more, and at most one place has changed: the one that its path led to. -/
theorem run_clearRole_cases {r : Except StorageError Nat} {w' : World σ}
    (h : (s.clearRole role).run b w = (r, w')) :
    (∃ e, r = .error e ∧ w'.disk = w.disk) ∨
      ∃ n, r = .ok n ∧ w'.disk.read (s.path role) = .error .notFound ∧
        (w'.disk = w.disk ∨ ∃ p e, w.disk.entry? false (s.path role) = .ok (p, e) ∧
          w'.disk = w.disk.changed (w.disk.tree.erase p) w.wall [p]) := by
  unfold clearRole at h
  rw [Plan.bind_eq, Plan.run_file] at h
  cases hremove : w.disk.remove w.wall (s.path role) with
  | ok d =>
      simp only [World.fileStep, hremove] at h
      obtain ⟨rfl, rfl⟩ := Prod.mk.inj h
      obtain ⟨p, e, hentry, -, hdisk⟩ := Disk.remove_eq_ok hremove
      exact .inr ⟨1, rfl, Disk.read_of_remove (.inl hremove), .inr ⟨p, e, hentry, hdisk⟩⟩
  | error e =>
      simp only [World.fileStep, hremove] at h
      split at h
      · next hfile => cases hfile
      · next hfile =>
          obtain rfl : e = .notFound := Except.error.inj hfile
          obtain ⟨rfl, rfl⟩ := Prod.mk.inj h
          exact .inr ⟨0, rfl, Disk.read_of_remove (.inr ⟨hremove, rfl⟩), .inl rfl⟩
      · obtain ⟨rfl, rfl⟩ := Prod.mk.inj h
        exact .inl ⟨_, rfl, rfl⟩

end Store

/-! ### Calls -/

namespace Manager

/-- The providers that have been registered sign off without changing a file. -/
def SignsOffAside (m : Manager) : Prop :=
  ∀ p ∈ m.providers, p.logout.LeavesFiles

variable {σ : Type} {m : Manager} {role : String} {b : PageBehaviour σ} {w : World σ} {p : Provider}

theorem SignsOffAside.provider (hm : m.SignsOffAside) (hp : m.provider role = .ok p) : p.logout.LeavesFiles := by
  unfold Manager.provider at hp
  split at hp
  · next registered hfind =>
      obtain rfl := Except.ok.inj hp
      exact hm registered (List.mem_of_find?_eq_some hfind)
  · exact Provider.leavesFiles_logout_ofSettings hp

/-- The world once a role has been signed off. -/
def signedOff (p : Provider) (b : PageBehaviour σ) (w : World σ) : World σ :=
  (p.logout.run.run b w).2

/-- What ends a session, and all that it leaves behind.  The role is signed off before its session is taken away, and
until then no file changes.  Nothing is found for the role then, as long as the files stay as they are, and at most
one place has changed, the one that the path of the role has led to, with the time of the directory that it has gone
from. -/
structure Ends (m : Manager) (role : String) (b : PageBehaviour σ) (w : World σ) (p : Provider) : Prop where
  provider : m.provider role = .ok p
  logout : (p.logout.run.run b w).1 = .ok ()
  trace : (m.finish role).trace b w = ⟨w, .acquire role, some ()⟩ :: p.logout.run.trace b w ++
    (m.store.clearRole role).trace b (signedOff p b w) ++ [⟨((m.finish role).run b w).2, .release role, some ()⟩]
  aside : ∀ e ∈ p.logout.run.trace b w, e.request.LeavesFiles
  gone : ∀ v : World σ, v.disk = ((m.finish role).run b w).2.disk → m.store.Gone role b v
  frame : ((m.finish role).run b w).2.disk = w.disk ∨
    ∃ place e, w.disk.entry? false (m.store.path role) = .ok (place, e) ∧
      ((m.finish role).run b w).2.disk.working = w.disk.working ∧
      ((m.finish role).run b w).2.disk.touched = (place.dropLast, (signedOff p b w).wall) :: w.disk.touched ∧
      ∀ q, q ≠ place → ((m.finish role).run b w).2.disk.tree.get? q = w.disk.tree.get? q

/-- Why a session could not be ended. -/
inductive Keeps (m : Manager) (role : String) (b : PageBehaviour σ) (w : World σ) : SessionError → Prop where
  | noProvider {i : Inconsistency} (h : m.provider role = .error i) : Keeps m role b w (.config i)
  | signedOn {p : Provider} {e : AuthError} (h : m.provider role = .ok p)
      (hlogout : (p.logout.run.run b w).1 = .error e) : Keeps m role b w (.auth e)
  | stays {p : Provider} {e : StorageError} (h : m.provider role = .ok p)
      (hlogout : (p.logout.run.run b w).1 = .ok ())
      (hclear : ((m.store.clearRole role).run b (signedOff p b w)).1 = .error e) : Keeps m role b w (.storage e)

theorem run_finish (hp : m.provider role = .ok p) :
    (m.finish role).run b w = match (p.logout.run.run b w).1 with
      | .error e => (.error (.auth e), signedOff p b w)
      | .ok _ => (((m.store.clearRole role).run b (signedOff p b w)).1.map (fun _ => ()) |>.mapError .storage,
          ((m.store.clearRole role).run b (signedOff p b w)).2) := by
  rw [finish, run_exclusively, finishAlone, hp]
  dsimp only
  rw [Plan.bind_eq, Plan.run_bind, signedOff]
  generalize p.logout.run.run b w = after
  obtain ⟨r, v⟩ := after
  cases r with
  | error e => rfl
  | ok u =>
      dsimp only
      rw [Plan.bind_eq, Plan.run_bind]
      generalize (m.store.clearRole role).run b v = cleared
      obtain ⟨r, v'⟩ := cleared
      cases r <;> rfl

/-- Once the role is signed off, all that is left to do is to take its session away. -/
theorem trace_finish (hp : m.provider role = .ok p) {u : Unit} (hlogout : (p.logout.run.run b w).1 = .ok u) :
    (m.finish role).trace b w = ⟨w, .acquire role, some ()⟩ :: p.logout.run.trace b w ++
      (m.store.clearRole role).trace b (signedOff p b w) ++
        [⟨((m.finish role).run b w).2, .release role, some ()⟩] := by
  have halone : (m.finishAlone role).trace b w =
      p.logout.run.trace b w ++ (m.store.clearRole role).trace b (signedOff p b w) := by
    rw [finishAlone, hp]
    dsimp only
    rw [Plan.bind_eq, Plan.trace_bind, hlogout]
    dsimp only
    rw [Plan.bind_eq, Plan.trace_bind, signedOff]
    generalize (p.logout.run.run b w).2 = v
    cases ((m.store.clearRole role).run b v).1 <;> simp
  rw [finish, trace_exclusively, halone, run_exclusively]
  rfl

/-- **Ending a session.**  Whatever the page, the environment, the settings and the files are, links among them: a
call that succeeds has first signed the role off, and then taken its session away; behind it nothing is found for the
role, and nothing else has changed.  A call that fails leaves all files as they were: it has found no provider, or the
role could not be signed off, or its session could not be taken away. -/
theorem finish_effects (hm : m.SignsOffAside) (b : PageBehaviour σ) (role : String) (w : World σ) :
    (((m.finish role).run b w).1 = .ok () → ∃ p, m.Ends role b w p) ∧
      ∀ e, ((m.finish role).run b w).1 = .error e →
        m.Keeps role b w e ∧ ((m.finish role).run b w).2.disk = w.disk := by
  cases hp : m.provider role with
  | error i =>
      have hrun : (m.finish role).run b w = (.error (.config i), w) := by
        rw [finish, run_exclusively, finishAlone, hp]
        rfl
      rw [hrun]
      refine ⟨fun h => (nomatch h), fun e h => ?_⟩
      obtain rfl := Except.error.inj h
      exact ⟨.noProvider hp, rfl⟩
  | ok p =>
      have haside := hm.provider hp
      have hdisk : (signedOff p b w).disk = w.disk := Plan.Obeys.disk_run b haside w
      have hrun := run_finish (b := b) (w := w) hp
      cases hlogout : (p.logout.run.run b w).1 with
      | error e =>
          rw [hlogout] at hrun
          rw [hrun]
          refine ⟨fun h => (nomatch h), fun e' h => ?_⟩
          obtain rfl := Except.error.inj h
          exact ⟨.signedOn hp hlogout, hdisk⟩
      | ok u =>
          rw [hlogout] at hrun
          dsimp only at hrun
          cases hclear : (m.store.clearRole role).run b (signedOff p b w) with
          | mk r v =>
              rw [hclear] at hrun
              rcases Store.run_clearRole_cases hclear with ⟨e, rfl, hkept⟩ | ⟨n, rfl, hgone, hframe⟩
              · rw [hrun]
                refine ⟨fun h => (nomatch h), fun e' h => ?_⟩
                obtain rfl := Except.error.inj h
                exact ⟨.stays hp hlogout (by rw [hclear]), hkept.trans hdisk⟩
              · refine ⟨fun _ => ⟨p, hp, hlogout, ?_, ?_, ?_, ?_⟩, ?_⟩
                · exact trace_finish hp hlogout
                · intro e he
                  exact haside.of_mem_trace b he
                · intro v' hv'
                  rw [hrun] at hv'
                  apply Store.gone_of_notFound
                  rw [hv']
                  exact hgone
                · rw [hrun]
                  rw [hdisk] at hframe
                  rcases hframe with hsame | ⟨place, e, hentry, herased⟩
                  · exact .inl hsame
                  · refine .inr ⟨place, e, hentry, ?_, ?_, fun q hq => ?_⟩
                    · rw [herased, Files.Disk.changed_working]
                    · rw [herased]
                      rfl
                    · rw [herased]
                      exact Files.Tree.get?_erase_of_ne hq
                · intro e h
                  rw [hrun] at h
                  cases h

/-- A page whose cookies can be cleared, if it says so. -/
def cookiePage (clears : Bool) : PageBehaviour Unit where
  url _ _ := "https://app.example/home"
  respond c _ _ :=
    { duration := 0
      outcome := match c with
        | .clearCookies => if clears then .ok () else .error (.other "context closed")
        | _ => .error (.other "unexpected")
      page := ()
      abandoned := fun _ => () }

/-- A flow that signs off by clearing the cookies. -/
def cookieFlow : CustomFlow where
  name := "cookies"
  login _ := Attempt.page "admin" .callback (.reload 1000)
  isSessionValid := return false
  logout := Attempt.page "admin" .callback .clearCookies

def cookieManager : Manager where
  settings := { provider := .custom }
  providers := [Provider.custom cookieFlow "admin" {} .standard]

/-- A world with the sessions of two roles. -/
def stockedWorld : World Unit where
  page := ()
  disk.tree :=
    [([".auth-states"], .directory 0),
      ([".auth-states", "admin.json"], .file (.text "one") 0),
      ([".auth-states", "viewer.json"], .file (.text "other") 0)]

/-- Where the role can be signed off, its session is taken away and the other one stays; where it cannot be, both
stay. -/
theorem finish_effects_stockedWorld :
    (cookieManager.store.Gone "admin" (cookiePage true)
          ((cookieManager.finish "admin").run (cookiePage true) stockedWorld).2 ∧
        ((cookieManager.finish "admin").run (cookiePage true) stockedWorld).2.disk.tree.get?
          [".auth-states", "viewer.json"] = some (.file (.text "other") 0)) ∧
      ((cookieManager.finish "admin").run (cookiePage false) stockedWorld).2.disk = stockedWorld.disk := by
  have haside : cookieManager.SignsOffAside := by
    intro p hp
    rw [List.mem_singleton.mp hp]
    exact Provider.leavesFiles_logout_custom Attempt.leavesFiles_page
  constructor
  · have hok : ((cookieManager.finish "admin").run (cookiePage true) stockedWorld).1 = .ok () := rfl
    have hplace : stockedWorld.disk.entry? false (cookieManager.store.path "admin") =
        .ok ([".auth-states", "admin.json"], .file (.text "one") 0) := by decide +kernel
    obtain ⟨p, hends⟩ := (finish_effects haside (cookiePage true) "admin" stockedWorld).1 hok
    have hgone := hends.gone
    have hframe := hends.frame
    generalize ((cookieManager.finish "admin").run (cookiePage true) stockedWorld).2 = w at hgone hframe ⊢
    refine ⟨hgone w rfl, ?_⟩
    rcases hframe with hsame | ⟨place, e, hentry, -, -, hothers⟩
    · rw [hsame]
      rfl
    · obtain ⟨rfl, -⟩ := Prod.mk.inj (Except.ok.inj (hplace.symm.trans hentry))
      rw [hothers _ (by decide)]
      rfl
  · have herror : ∃ e, ((cookieManager.finish "admin").run (cookiePage false) stockedWorld).1 = .error e := ⟨_, rfl⟩
    obtain ⟨e, he⟩ := herror
    exact ((finish_effects haside (cookiePage false) "admin" stockedWorld).2 e he).2

end Manager

end SignOn
