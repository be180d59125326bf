import Mathlib.Data.List.Chain
import SignOn.Proofs.SessionEffects

/-! # Calls for several roles on one page

Whether a page shows a session is asked of its address and its elements, not of the role.  So what calls for
several roles save depends on who has signed on last.

* `Manager.turns` are the stages that calls on one page go through, call after call (`isChain_turns`).
* `Manager.OnlyLoginsChange` says that the session which the page gives out changes by logins alone, and
  `Manager.StartsSignedOff` that no role is shown one before the first of them.  Then nothing is saved before
  the first login (`not_save_before_login`).
* `saved_session_of_last_login` says whose session is saved.  It need not be the one of the role that it is
  saved for (`not_isolated_kiosk`). -/

namespace SignOn.Manager

variable {σ : Type}

/-! ### Turns -/

/-- A stage of a call among the calls for several roles. -/
structure Turn (σ : Type) extends Visit σ where
  role : String

/-- The stage is the one that signs on. -/
def Stage.isLogin : Stage → Bool
  | .login .. => true
  | _ => false

section

variable (m : Manager) (b : PageBehaviour σ)

/-- The turns of calls on one page.  Each call is for a role, a number of milliseconds behind the one
before. -/
def turns : List (Nat × String) → World σ → List (Turn σ)
  | [], _ => []
  | (ms, role) :: calls, w =>
    (m.visits role b (w.advance ms)).map (fun v => ⟨v, role⟩) ++
      turns calls ((m.ensure role).run b (w.advance ms)).2

def behind (t : Turn σ) : World σ :=
  ((m.take t.role t.stage).run b t.world).2

/-- The session that the page gives out. -/
def exported (w : World σ) : Except PageError StoredSession :=
  (b.respond .storageState w.page w.now).outcome

/-- The session that the page should give out at the next turn. -/
def kept (t : Turn σ) : Except PageError StoredSession :=
  exported b (if t.stage.isLogin then m.behind b t else t.world)

/-- The session that the page gives out changes by logins alone. -/
def OnlyLoginsChange (calls : List (Nat × String)) (w : World σ) : Prop :=
  (m.turns b calls w).IsChain fun t t' => exported b t'.world = m.kept b t

/-- The milliseconds that calls wait in all. -/
def waiting : List (Nat × String) → Nat
  | [] => 0
  | (ms, _) :: calls => ms + waiting calls

/-- At the start, and as long as the calls may wait, the page shows no session to any role. -/
def StartsSignedOff (calls : List (Nat × String)) (w : World σ) : Prop :=
  ∀ ms ≤ waiting calls, ∀ role p, m.provider role = .ok p →
    (p.isSessionValid.run b (w.advance ms)).1 = false

/-- Every session that is saved for a role is one that a login of that role has left on the page. -/
def Isolated (calls : List (Nat × String)) (w : World σ) : Prop :=
  ∀ before t after path, m.turns b calls w = before ++ t :: after → t.stage = .save →
    ((m.save t.role).run b t.world).1 = .ok path →
      ∃ l ∈ before, ∃ p c r, l.role = t.role ∧ l.stage = .login p c ∧
        ((p.login c).run.run b l.world).1 = .ok r ∧ exported b t.world = exported b (m.behind b l)

/-- On what grounds a turn follows another one. -/
def Follows (t t' : Turn σ) : Prop :=
  t'.stage = .load ∨ t'.role = t.role ∧ m.Leads t.role b t.stage t.world t'.stage

end

variable {m : Manager} {b : PageBehaviour σ} {role : String} {w : World σ} {calls : List (Nat × String)}

theorem exists_visits_eq (m : Manager) (role : String) (b : PageBehaviour σ) (w : World σ) :
    ∃ rest, m.visits role b w = ⟨.load, w⟩ :: rest :=
  ⟨m.visitsFrom role b 4 (m.following role b ⟨.load, w⟩), rfl⟩

theorem stage_of_head? {t : Turn σ} (h : (m.turns b calls w).head? = some t) : t.stage = .load := by
  cases calls with
  | nil => cases h
  | cons call calls =>
      obtain ⟨rest, hrest⟩ := exists_visits_eq m call.2 b (w.advance call.1)
      rw [turns, hrest] at h
      obtain rfl := Option.some.inj h
      rfl

/-- A turn is the first one of a call, or its stage is what the one before leads to. -/
theorem isChain_turns : (m.turns b calls w).IsChain (m.Follows b) := by
  induction calls generalizing w with
  | nil => exact .nil
  | cons call calls ih =>
      rw [turns, List.isChain_append]
      refine ⟨?_, ih, ?_⟩
      · rw [List.isChain_map]
        exact (m.isChain_visitsFrom call.2 b 5 _).imp fun u u' h => .inr ⟨rfl, h.1⟩
      · intro t _ t' ht'
        exact .inl (stage_of_head? ht')

theorem mem_visits_of_mem_turns {t : Turn σ} (h : t ∈ m.turns b calls w) :
    ∃ v, World.Frozen w v ∧ (w.disk.tree.LinkFree → v.disk.tree.LinkFree) ∧
      t.toVisit ∈ m.visits t.role b v := by
  induction calls generalizing w with
  | nil => cases h
  | cons call calls ih =>
      rw [turns] at h
      rcases List.mem_append.mp h with h | h
      · obtain ⟨v, hv, rfl⟩ := List.mem_map.mp h
        exact ⟨w.advance call.1, ⟨rfl, rfl, rfl⟩, id, hv⟩
      · obtain ⟨v, hfrozen, hfree, hv⟩ := ih h
        have hcall := Plan.frozen_run b (m.ensure call.2) (w.advance call.1)
        have hwait : World.Frozen w (w.advance call.1) := ⟨rfl, rfl, rfl⟩
        refine ⟨v, hwait.trans (hcall.trans hfrozen), fun hw => hfree ?_, hv⟩
        exact Plan.linkFree_run b (m.ensure call.2) (w := w.advance call.1) hw

/-! ### Credentials -/

theorem resolve_congr {v w : World σ} (h : w.environment = v.environment) :
    ((m.resolve role).run b w).1 = ((m.resolve role).run b v).1 := by
  have hread : ∀ name (u : World σ), (Plan.nonBlankEnv name).run b u =
      ((u.environment name).filter fun value => !Text.isAllBlank value, u) := fun _ _ => rfl
  unfold resolve Credentials.resolve
  cases m.settings.role role with
  | error e => rfl
  | ok r =>
      simp only [Plan.bind_eq, Plan.run_bind, hread, h]
      split <;> rfl

variable (m b role w) in
/-- Provider and credentials of the stage are those of the role. -/
def Stage.Resolved : Stage → Prop
  | .check p c | .login p c => m.provider role = .ok p ∧ ((m.resolve role).run b w).1 = .ok c
  | _ => True

theorem resolved_of_mem_visits {u : Visit σ} (hu : u ∈ m.visits role b w) : u.stage.Resolved m b role w := by
  have hcall : World.Frozen w u.world ∧ u.stage.Resolved m b role w := by
    refine m.invariant_of_mem_visitsFrom role b
      (I := fun v => World.Frozen w v.world ∧ v.stage.Resolved m b role w) ?_ hu ⟨.refl w, trivial⟩
    rintro v hleft ⟨hfrozen, hresolved⟩
    refine ⟨hfrozen.trans (Plan.frozen_run b (m.take role v.stage) v.world), ?_⟩
    have hlead := m.leads_take role b hleft v.world
    change Stage.Resolved m b role w ((m.take role v.stage).run b v.world).1
    generalize ((m.take role v.stage).run b v.world).1 = next at hlead
    obtain ⟨stage, world⟩ := v
    cases hlead with
    | resolved hc hp => exact ⟨hp, (resolve_congr hfrozen.1).symm.trans hc⟩
    | hidden => exact hresolved
    | _ => exact trivial
  exact hcall.2

/-! ### The first login -/

theorem stage_following_check {p : Provider} {c : Credentials} (h : (p.isSessionValid.run b w).1 = false) :
    (m.following role b ⟨.check p c, w⟩).stage = .login p c := by
  rw [following, take, Plan.bind_eq, Plan.run_bind, h]
  rfl

theorem Leads.of_looking {s s' : Stage} (h : m.Leads role b s w s') (hs : s = .load ∨ s = .resolve) :
    (∃ r, s' = .ended r) ∨ s' = .resolve ∨ ∃ p c, s' = .check p c ∧ m.provider role = .ok p := by
  cases h with
  | reused | unresolved | unprovided => exact .inl ⟨_, rfl⟩
  | missing => exact .inr (.inl rfl)
  | resolved hc hp => exact .inr (.inr ⟨_, _, rfl, hp⟩)
  | _ => rcases hs with hs | hs <;> cases hs

/-- Where the page shows no session, a call leaves it alone and saves nothing, or signs on before it saves
anything. -/
theorem looks_or_login (hoff : ∀ p, m.provider role = .ok p → (p.isSessionValid.run b w).1 = false)
    {n : Nat} {v : Visit σ} (hv : v.stage = .load ∨ v.stage = .resolve) (hn : v.stage.left ≤ n)
    (hw : World.Alike w v.world) :
    ((∀ u ∈ m.visitsFrom role b n v, u.stage ≠ .save) ∧
        World.Alike w ((m.rest role v.stage).run b v.world).2) ∨
      ∃ pre l post, m.visitsFrom role b n v = pre ++ l :: post ∧ l.stage.isLogin = true ∧
        ∀ u ∈ pre, u.stage ≠ .save := by
  induction n generalizing v with
  | zero => rcases hv with hv | hv <;> rw [hv] at hn <;> cases hn
  | succ n ih =>
      have hleft : v.stage.left ≠ 0 := by
        rcases hv with hv | hv <;> rw [hv] <;> decide
      have hsave : v.stage ≠ .save := by
        rcases hv with hv | hv <;> rw [hv] <;> exact Stage.noConfusion
      have hlooks : (m.take role v.stage).Obeys Request.Looks fun _ => True := looks_take hv
      have hnext : World.Alike w (m.following role b v).world := hw.trans (hlooks.alike_run b v.world)
      have hlt := m.left_following role b hleft
      have hlead : m.Leads role b v.stage v.world (m.following role b v).stage :=
        m.leads_take role b hleft v.world
      rw [visitsFrom, if_neg hleft, run_rest]
      generalize m.following role b v = u at *
      obtain ⟨stage, world⟩ := u
      rcases hlead.of_looking hv with ⟨r, hr⟩ | hr | ⟨p, c, hr, hp⟩ <;> obtain rfl := hr
      · refine .inl ⟨?_, hnext⟩
        rw [visitsFrom_of_left_eq_zero m role b rfl]
        intro u hu
        rw [List.mem_singleton.mp hu]
        exact hsave
      · rcases ih (.inr rfl) (by dsimp only at hlt ⊢; omega) hnext with
          ⟨hvisits, halike⟩ | ⟨pre, l, post, hvisits, hl, hpre⟩
        · refine .inl ⟨?_, halike⟩
          intro u hu
          rcases List.mem_cons.mp hu with rfl | hu
          · exact hsave
          · exact hvisits u hu
        · refine .inr ⟨v :: pre, l, post, by rw [hvisits, List.cons_append], hl, ?_⟩
          intro u hu
          rcases List.mem_cons.mp hu with rfl | hu
          · exact hsave
          · exact hpre u hu
      · have hshown : (p.isSessionValid.run b world).1 = false :=
          (p.isSessionValid.run_of_alike b hnext).1.trans (hoff p hp)
        have hlogin : (m.following role b ⟨.check p c, world⟩).stage = .login p c :=
          stage_following_check hshown
        change 3 < v.stage.left at hlt
        obtain ⟨k, rfl⟩ : ∃ k, n = k + 2 := ⟨n - 2, by omega⟩
        refine .inr ⟨[v, ⟨.check p c, world⟩], m.following role b ⟨.check p c, world⟩,
          m.visitsFrom role b k (m.following role b (m.following role b ⟨.check p c, world⟩)), ?_, ?_, ?_⟩
        · rw [visitsFrom, if_neg (by simp [Stage.left]), visitsFrom, hlogin, if_neg (by simp [Stage.left])]
          rfl
        · rw [hlogin]
          rfl
        · intro u hu
          rcases List.mem_cons.mp hu with rfl | hu
          · exact hsave
          · rw [List.mem_singleton.mp hu]
            exact Stage.noConfusion

theorem advance_advance (w : World σ) (ms ms' : Nat) : (w.advance ms).advance ms' = w.advance (ms + ms') := by
  simp only [World.advance, Nat.add_assoc]

theorem StartsSignedOff.behind_call {ms : Nat} (h : m.StartsSignedOff b ((ms, role) :: calls) w)
    {w' : World σ} (hw : World.Alike (w.advance ms) w') : m.StartsSignedOff b calls w' := by
  intro ms' hms' role' p hp
  have halike : World.Alike (w.advance (ms + ms')) (w'.advance ms') :=
    advance_advance w ms ms' ▸ hw.advance ms'
  rw [(p.isSessionValid.run_of_alike b halike).1]
  refine h (ms + ms') ?_ role' p hp
  rw [waiting]
  omega

theorem mem_or_mem_takeWhile {α : Type} {p : α → Bool} {a : α} {xs ys : List α}
    (h : a ∈ (xs ++ ys).takeWhile p) : a ∈ xs ∨ a ∈ ys.takeWhile p := by
  rw [List.takeWhile_append] at h
  split at h
  · exact List.mem_append.mp h
  · exact .inl ((List.takeWhile_sublist p).subset h)

/-- Nothing is saved before the first login. -/
theorem not_save_before_login (h : m.StartsSignedOff b calls w) {t : Turn σ}
    (ht : t ∈ (m.turns b calls w).takeWhile fun t => !t.stage.isLogin) : t.stage ≠ .save := by
  induction calls generalizing w with
  | nil => cases ht
  | cons call calls ih =>
      obtain ⟨ms, role⟩ := call
      have hoff : ∀ p, m.provider role = .ok p → (p.isSessionValid.run b (w.advance ms)).1 = false := by
        intro p hp
        refine h ms ?_ role p hp
        rw [waiting]
        omega
      rw [turns] at ht
      rcases looks_or_login (n := 5) (v := ⟨.load, w.advance ms⟩) hoff (.inl rfl) (Nat.le_refl _) (.refl _) with
        ⟨hquiet, halike⟩ | ⟨pre, l, post, hvisits, hl, hpre⟩
      · rw [← run_ensure] at halike
        rcases mem_or_mem_takeWhile ht with ht | ht
        · obtain ⟨v, hv, rfl⟩ := List.mem_map.mp ht
          exact hquiet v hv
        · exact ih (h.behind_call halike) ht
      · rw [visits, hvisits, List.map_append, List.map_cons, List.append_assoc] at ht
        rcases mem_or_mem_takeWhile ht with ht | ht
        · obtain ⟨v, hv, rfl⟩ := List.mem_map.mp ht
          exact hpre v hv
        · rw [List.cons_append, List.takeWhile_cons_of_neg (by rw [hl]; decide)] at ht
          cases ht

theorem exists_last_of_any {α : Type} {p : α → Bool} {xs : List α} (h : xs.any p = true) :
    ∃ pre l post, xs = pre ++ l :: post ∧ p l = true ∧ ∀ a ∈ post, p a = false := by
  induction xs with
  | nil => cases h
  | cons x xs ih =>
      cases hrest : xs.any p with
      | true =>
          obtain ⟨pre, l, post, rfl, hl⟩ := ih hrest
          exact ⟨x :: pre, l, post, rfl, hl⟩
      | false =>
          rw [List.any_cons, hrest, Bool.or_false] at h
          exact ⟨[], x, xs, rfl, h, by simpa using hrest⟩

theorem exists_last_login (h : m.StartsSignedOff b calls w) {before after : List (Turn σ)} {t : Turn σ}
    (hturns : m.turns b calls w = before ++ t :: after) (hsave : t.stage = .save) :
    ∃ pre l mid, before = pre ++ l :: mid ∧ l.stage.isLogin = true ∧ ∀ u ∈ mid, u.stage.isLogin = false := by
  refine exists_last_of_any (p := fun u : Turn σ => u.stage.isLogin) ?_
  by_contra hnone
  refine not_save_before_login h (t := t) ?_ hsave
  have hbefore : ∀ u ∈ before, (!u.stage.isLogin) = true := by
    simpa using hnone
  rw [hturns, List.takeWhile_append_of_pos hbefore, List.takeWhile_cons_of_pos (by rw [hsave]; rfl)]
  exact List.mem_append_right _ List.mem_cons_self

theorem exported_eq_kept {l t : Turn σ} {mid after : List (Turn σ)}
    (h : (l :: (mid ++ t :: after)).IsChain fun t t' => exported b t'.world = m.kept b t)
    (hmid : ∀ u ∈ mid, u.stage.isLogin = false) : exported b t.world = m.kept b l := by
  induction mid generalizing l with
  | nil => exact (List.isChain_cons_cons.mp h).1
  | cons u mid ih =>
      obtain ⟨hfirst, hrest⟩ := List.isChain_cons_cons.mp h
      rw [ih hrest fun u' hu' => hmid u' (List.mem_cons_of_mem u hu'), kept, hmid u List.mem_cons_self]
      exact hfirst

theorem written_of_run_save {path : String} (h : ((m.save role).run b w).1 = .ok path) :
    path = m.store.path role ∧ ∃ session, exported b w = .ok session ∧
      (w.disk.tree.LinkFree → ((m.save role).run b w).2.disk.HasFile path (.text session.written)
        ((m.save role).run b w).2.wall) := by
  rw [run_save] at h ⊢
  cases hstore : (m.store.save role).run b w with
  | mk result after =>
      rw [hstore] at h
      cases result with
      | error e => cases h
      | ok path' =>
          obtain rfl : path' = path := Except.ok.inj h
          obtain ⟨v, hv, ⟨-, e, he⟩ | ⟨session, hexport, hwrite⟩⟩ := Store.run_save_cases hstore
          · cases he
          · have hpath := (Store.of_run_write_ok hwrite).1
            refine ⟨hpath, session, hexport, fun hw => ?_⟩
            rw [hpath]
            exact (Store.hasFile_of_run_write (hv ▸ hw) hwrite).2

/-- The turn before a save is one of the same call: the page has shown a session, or the login has
succeeded. -/
theorem Follows.of_save {t t' : Turn σ} (h : m.Follows b t t') (hsave : t'.stage = .save) :
    t'.role = t.role ∧
      ((∃ p c, t.stage = .check p c ∧ (p.isSessionValid.run b t.world).1 = true) ∨
        ∃ p c r, t.stage = .login p c ∧ ((p.login c).run.run b t.world).1 = .ok r) := by
  rcases h with h | ⟨hrole, hlead⟩
  · cases h.symm.trans hsave
  · refine ⟨hrole, ?_⟩
    rw [hsave] at hlead
    generalize t.stage = stage at hlead
    cases hlead with
    | shown h => exact .inl ⟨_, _, rfl, h⟩
    | loggedIn h => exact .inr ⟨_, _, _, rfl, h⟩

/-- **Whose session is saved.**  On a page that starts signed off and whose session changes by logins alone,
what is saved for a role is the session that the last login before it has left on the page, a login with the
credentials of its own role.  Either it is the one of the same call and has succeeded, or the call has found
the page showing a session and has not signed on itself. -/
theorem saved_session_of_last_login (hoff : m.StartsSignedOff b calls w) (hkeep : m.OnlyLoginsChange b calls w)
    {before after : List (Turn σ)} {t : Turn σ} (hturns : m.turns b calls w = before ++ t :: after)
    (hsave : t.stage = .save) {path : String} (hpath : ((m.save t.role).run b t.world).1 = .ok path) :
    ∃ pre l mid p c session, before = pre ++ l :: mid ∧ l.stage = .login p c ∧
      (∀ u ∈ mid, u.stage.isLogin = false) ∧
      m.provider l.role = .ok p ∧ ((m.resolve l.role).run b w).1 = .ok c ∧
      exported b (m.behind b l) = .ok session ∧ path = m.store.path t.role ∧
      (w.disk.tree.LinkFree → ((m.save t.role).run b t.world).2.disk.HasFile path (.text session.written)
        ((m.save t.role).run b t.world).2.wall) ∧
      (mid = [] ∧ l.role = t.role ∧ (∃ r, ((p.login c).run.run b l.world).1 = .ok r) ∨
        ∃ u p' c', mid.getLast? = some u ∧ u.role = t.role ∧ u.stage = .check p' c' ∧
          m.provider t.role = .ok p' ∧ (p'.isSessionValid.run b u.world).1 = true) := by
  obtain ⟨pre, l, mid, rfl, hlogin, hmid⟩ := exists_last_login hoff hturns hsave
  rw [List.append_assoc, List.cons_append] at hturns
  have hl : l ∈ m.turns b calls w := hturns ▸ List.mem_append_right pre List.mem_cons_self
  have ht : t ∈ m.turns b calls w :=
    hturns ▸ List.mem_append_right pre (List.mem_cons_of_mem l (List.mem_append_right mid List.mem_cons_self))
  have hchain : (m.turns b calls w).IsChain (m.Follows b) := isChain_turns
  rw [OnlyLoginsChange, hturns] at hkeep
  rw [hturns] at hchain
  have hexport := exported_eq_kept hkeep.right_of_append hmid
  rw [kept, if_pos hlogin] at hexport
  obtain ⟨hwritten, session, hsession, hfile⟩ := written_of_run_save hpath
  have hfree : w.disk.tree.LinkFree → t.world.disk.tree.LinkFree := by
    intro hw
    obtain ⟨v, -, hv, hvisit⟩ := mem_visits_of_mem_turns ht
    exact m.linkFree_of_mem_visitsFrom t.role b hvisit (hv hw)
  obtain ⟨p, c, hstage⟩ : ∃ p c, l.stage = .login p c := by
    generalize l.stage = stage at hlogin
    cases stage with
    | login p c => exact ⟨p, c, rfl⟩
    | _ => cases hlogin
  obtain ⟨v, hfrozen, -, hvisit⟩ := mem_visits_of_mem_turns hl
  have hresolved := resolved_of_mem_visits hvisit
  rw [hstage] at hresolved
  refine ⟨pre, l, mid, p, c, session, rfl, hstage, hmid, hresolved.1,
    (resolve_congr hfrozen.1).symm.trans hresolved.2, hexport.symm.trans hsession, hwritten,
    fun hw => hfile (hfree hw), ?_⟩
  -- The turn before the save tells the two cases apart: it is that login, or a check of the call that saves.
  rcases List.eq_nil_or_concat mid with rfl | ⟨init, u, hconcat⟩
  · have hfollows := List.isChain_iff_forall_rel_of_append_cons_cons.mp hchain rfl
    obtain ⟨hrole, ⟨p', c', hcheck, -⟩ | ⟨p', c', r, hlogin', hr⟩⟩ := hfollows.of_save hsave
    · cases hstage.symm.trans hcheck
    · obtain ⟨rfl, rfl⟩ := Stage.login.inj (hstage.symm.trans hlogin')
      exact .inl ⟨rfl, hrole.symm, r, hr⟩
  · rw [List.concat_eq_append] at hconcat
    obtain rfl := hconcat
    have hsplit : pre ++ l :: (init ++ [u] ++ t :: after) = (pre ++ l :: init) ++ u :: t :: after := by
      simp only [List.append_assoc, List.cons_append, List.nil_append]
    have hfollows := List.isChain_iff_forall_rel_of_append_cons_cons.mp hchain hsplit
    have hu : u ∈ m.turns b calls w := by
      rw [hturns, hsplit]
      exact List.mem_append_right _ List.mem_cons_self
    obtain ⟨hrole, ⟨p', c', hcheck, hshown⟩ | ⟨p', c', r, hlogin', -⟩⟩ := hfollows.of_save hsave
    · obtain ⟨v, -, -, hvisit⟩ := mem_visits_of_mem_turns hu
      have hprovided := resolved_of_mem_visits hvisit
      rw [hcheck] at hprovided
      refine .inr ⟨u, p', c', List.getLast?_concat, hrole.symm, hcheck, ?_, hshown⟩
      rw [hrole]
      exact hprovided.1
    · have hnone := hmid u (List.mem_append_right init List.mem_cons_self)
      rw [hlogin'] at hnone
      cases hnone

/-! ### A page that several roles share -/

/-- What has been entered as the user, and who is signed on. -/
structure Kiosk where
  entered : String := ""
  user : Option String := none

/-- A page that shows the application to whoever is signed on. -/
def kioskPage : PageBehaviour Kiosk where
  url _ _ := "https://app.example/"
  respond call k _ :=
    { duration := 0
      outcome := match call with
        | .isVisible selector => .ok (selector = "#home" && k.user.isSome)
        | .storageState => .ok { cookies := .ofList (k.user.toList.map .string) }
        | .inputValue _ => .ok ""
        | .textContent _ => .ok none
        | .evaluate _ => .ok .null
        | .goto .. | .waitForUrl .. | .waitForSelector .. | .waitForLoadState .. | .fill .. | .click _
        | .reload _ | .clearCookies => .ok ()
      page := match call with
        | .fill selector value => if selector = "#user" then { k with entered := value } else k
        | .click _ => { k with user := some k.entered }
        | _ => k
      abandoned := fun _ => k }

/-- A manager for two roles that sign on through one form. -/
def kioskManager : Manager where
  settings :=
    { provider := .form
      roles := [("admin", { credentials := ⟨"ADMIN_USER", "ADMIN_PASSWORD"⟩ }),
        ("viewer", { credentials := ⟨"VIEWER_USER", "VIEWER_PASSWORD"⟩ })]
      form := some
        { loginUrl := "https://app.example/login"
          usernameSelector := "#user"
          success := { selector := some "#home" }
          probe := { timeout := 0 } } }

/-- A world without files, in which every variable holds its own name. -/
def kioskWorld : World Kiosk where
  page := {}
  epoch := 1700000000000
  environment name := some name

/-- A call for each of the two roles, one right behind the other. -/
def kioskCalls : List (Nat × String) :=
  [(0, "admin"), (0, "viewer")]

/-- Whose turn it is, at which stage, and the path that it saves to. -/
def overview (t : Turn Kiosk) : String × Nat × Option String :=
  (t.role, t.stage.left,
    if t.stage.left = 1 then ((kioskManager.save t.role).run kioskPage t.world).1.toOption else none)

theorem startsSignedOff_kiosk : kioskManager.StartsSignedOff kioskPage kioskCalls kioskWorld := by
  intro ms hms role p hp
  obtain rfl : ms = 0 := Nat.le_zero.mp hms
  obtain rfl := Except.ok.inj hp
  rfl

theorem ok_of_toOption {ε α : Type} {r : Except ε α} {a : α} (h : r.toOption = some a) : r = .ok a := by
  cases r with
  | error e => cases h
  | ok a' => rw [Option.some.inj h]

theorem onlyLoginsChange_kiosk : kioskManager.OnlyLoginsChange kioskPage kioskCalls kioskWorld := by
  have hchain : (kioskManager.turns kioskPage kioskCalls kioskWorld).IsChain fun t t' =>
      (exported kioskPage t'.world).toOption = (kioskManager.kept kioskPage t).toOption ∧
        (exported kioskPage t'.world).toOption.isSome = true := by
    decide +kernel
  refine hchain.imp fun t t' h => ?_
  obtain ⟨hsame, hsome⟩ := h
  obtain ⟨session, hsession⟩ := Option.isSome_iff_exists.mp hsome
  exact (ok_of_toOption hsession).trans (ok_of_toOption (hsame.symm.trans hsession)).symm

theorem exists_saved_kiosk :
    ∃ before t, kioskManager.turns kioskPage kioskCalls kioskWorld = before ++ [t] ∧ t.role = "viewer" ∧
      t.stage = .save ∧
      ((kioskManager.save t.role).run kioskPage t.world).1 = .ok ".auth-states/viewer.json" ∧
      ∀ l ∈ before, l.stage.isLogin = true → l.role = "admin" := by
  have hturns : (kioskManager.turns kioskPage kioskCalls kioskWorld).map overview =
      [("admin", 5, none), ("admin", 4, none), ("admin", 3, none), ("admin", 2, none),
        ("admin", 1, some ".auth-states/admin.json"), ("viewer", 5, none), ("viewer", 4, none),
        ("viewer", 3, none)] ++ [("viewer", 1, some ".auth-states/viewer.json")] := by
    decide +kernel
  obtain ⟨before, last, hsplit, hbefore, hlast⟩ := List.map_eq_append_iff.mp hturns
  obtain ⟨t, rfl, ht⟩ := List.map_eq_singleton_iff.mp hlast
  obtain ⟨hrole, hrest⟩ := Prod.mk.inj ht
  obtain ⟨hleft, hpath⟩ := Prod.mk.inj hrest
  rw [if_pos hleft] at hpath
  have hsave : t.stage = .save := by
    generalize t.stage = stage at hleft
    cases stage <;> first | rfl | cases hleft
  refine ⟨before, t, hsplit, hrole, hsave, ok_of_toOption hpath, ?_⟩
  intro l hl hlogin
  have hmem := List.mem_map_of_mem (f := overview) hl
  rw [hbefore] at hmem
  have hlogins : l.stage.left = 2 := by
    generalize l.stage = stage at hlogin
    cases stage <;> first | rfl | cases hlogin
  rw [overview, hlogins] at hmem
  simpa using hmem

/-- Both calls save the session of the one login. -/
theorem saved_session_of_last_login_kiosk :
    ∃ before t l session, kioskManager.turns kioskPage kioskCalls kioskWorld = before ++ [t] ∧
      t.role = "viewer" ∧ l ∈ before ∧ l.stage.isLogin = true ∧
      exported kioskPage (kioskManager.behind kioskPage l) = .ok session ∧
      ((kioskManager.save t.role).run kioskPage t.world).2.disk.HasFile ".auth-states/viewer.json"
        (.text session.written) ((kioskManager.save t.role).run kioskPage t.world).2.wall := by
  obtain ⟨before, t, hturns, hrole, hsave, hpath, -⟩ := exists_saved_kiosk
  obtain ⟨pre, l, mid, p, c, session, rfl, hlogin, -, -, -, hsession, -, hfile, -⟩ :=
    saved_session_of_last_login startsSignedOff_kiosk onlyLoginsChange_kiosk hturns hsave hpath
  refine ⟨_, t, l, session, hturns, hrole, List.mem_append_right pre List.mem_cons_self, ?_, hsession,
    hfile linkFree_homeWorld⟩
  rw [hlogin]
  rfl

/-- The session that is saved for the second role is not one that it has signed on for. -/
theorem not_isolated_kiosk :
    kioskManager.StartsSignedOff kioskPage kioskCalls kioskWorld ∧
      kioskManager.OnlyLoginsChange kioskPage kioskCalls kioskWorld ∧
      ¬ kioskManager.Isolated kioskPage kioskCalls kioskWorld := by
  refine ⟨startsSignedOff_kiosk, onlyLoginsChange_kiosk, ?_⟩
  intro hisolated
  obtain ⟨before, t, hturns, hrole, hsave, hpath, hothers⟩ := exists_saved_kiosk
  obtain ⟨l, hl, p, c, r, hsame, hlogin, -⟩ := hisolated before t [] _ hturns hsave hpath
  have hadmin := hothers l hl (by rw [hlogin]; rfl)
  rw [hadmin, hrole] at hsame
  exact absurd hsame (by decide)

end SignOn.Manager
