import SignOn.Proofs.Findings
import SignOn.Proofs.SharedPage

/-! # How long a saved session is used

* A `Call` asks for the session of a role, on a page and from a world of its own.  One call is `Undisturbed` by what
  lies between it and the one before if no clock has been turned back and the path of the role still leads to the
  same.
* `Manager.Holds` says that a session stands at the path of the role, under the time at which it has been written.
  A call that starts no later than its last instant reuses it and leaves it (`reuses_of_load`); so it is still there
  for the calls behind (`holds_start`).
* `reuse_until_expired` is about runs of calls of any length: a session that has been saved is reused up to its last
  instant, and never behind it.  Hence saves are further apart than the limit. -/

namespace SignOn.Manager

open Files (Disk)

/-- A call for the session of a role: the page that it works on, and the world that it starts in. -/
structure Call (σ : Type) where
  page : PageBehaviour σ
  start : World σ

namespace Call

variable {σ : Type} (m : Manager) (role : String)

def result (c : Call σ) : Except SessionError String :=
  ((m.ensure role).run c.page c.start).1

def behind (c : Call σ) : World σ :=
  ((m.ensure role).run c.page c.start).2

/-- The call has saved a session: it ends by saving what the page holds, and gives the path of it. -/
def Saves (c : Call σ) : Prop :=
  (∃ v, (m.visits role c.page c.start).getLast? = some ⟨.save, v⟩) ∧ ∃ path, c.result m role = .ok path

/-- The call has found a session and has done nothing but look at files, with the lock around it. -/
structure Reuses (c : Call σ) : Prop where
  result : c.result m role = .ok (m.store.path role)
  disk : (c.behind m role).disk = c.start.disk
  visits : m.visits role c.page c.start = [⟨.load, c.start⟩]
  requests : ∀ e ∈ (m.ensure role).trace c.page c.start,
    e.request = .acquire role ∨ e.request.LooksAtFiles ∨ e.request = .release role

/-- The call has looked for another session. -/
def LooksFurther (c : Call σ) : Prop :=
  (∃ v, ⟨.resolve, v⟩ ∈ m.visits role c.page c.start) ∧ ∀ path, c.result m role = .ok path → c.Saves m role

/-- Every session that the page gives out can be read again. -/
def ExportsReadable (c : Call σ) : Prop :=
  ∀ page now session, (c.page.respond .storageState page now).outcome = .ok session → session.Readable

/-- A call on the same page, some time after this one. -/
def later (c : Call σ) (ms : Nat) : Call σ where
  page := c.page
  start := (c.behind m role).advance ms

/-- The call comes after another one, and the path of the role leads to what that one has left there. -/
structure Undisturbed (c c' : Call σ) : Prop where
  later : (c.behind m role).wall ≤ c'.start.wall
  file : Disk.SameAt (m.store.path role) (c.behind m role).disk c'.start.disk

section

variable {m role} {c : Call σ} {ms : Nat}

theorem frozen_later : World.Frozen c.start (c.later m role ms).start := by
  have hcall : World.Frozen c.start (c.behind m role) := Plan.frozen_run c.page (m.ensure role) c.start
  unfold later
  generalize c.behind m role = w at hcall ⊢
  exact hcall

theorem wall_later (h : c.start.wallStopped = false) :
    (c.later m role ms).start.wall = (c.behind m role).wall + ms := by
  have hcall : World.Frozen c.start (c.behind m role) := Plan.frozen_run c.page (m.ensure role) c.start
  unfold later
  generalize c.behind m role = w at hcall ⊢
  exact World.wall_advance (hcall.2.2.trans h) ms

theorem linkFree_later (h : c.start.disk.tree.LinkFree) : (c.later m role ms).start.disk.tree.LinkFree := by
  have hcall := Plan.linkFree_run c.page (m.ensure role) h
  unfold later behind
  generalize ((m.ensure role).run c.page c.start).2 = w at hcall ⊢
  exact hcall

theorem exportsReadable_later (h : c.ExportsReadable) : (c.later m role ms).ExportsReadable := by
  unfold later ExportsReadable
  dsimp only
  exact h

theorem undisturbed_later : Undisturbed m role c (c.later m role ms) := by
  unfold later
  constructor
  · exact (c.behind m role).wall_le_advance ms
  · generalize c.behind m role = w
    exact .refl _ w.disk

end

end Call

/-- A session that can be read stands at the path of the role, under the time at which it has been written. -/
def Holds (m : Manager) (role : String) (d : Disk) (written : Int) : Prop :=
  ∃ session : StoredSession, session.Readable ∧ d.read (m.store.path role) = .ok (.text session.written) ∧
    d.modified (m.store.path role) = .ok written

variable {σ : Type} {m : Manager} {role : String} {c d : Call σ} {written : Int}

theorem Holds.of_sameAt {disk disk' : Disk} (h : m.Holds role disk written)
    (hsame : Disk.SameAt (m.store.path role) disk disk') : m.Holds role disk' written := by
  obtain ⟨session, hreadable, hread, hmodified⟩ := h
  exact ⟨session, hreadable, hsame.read.trans hread, (hsame.modified _ hread).trans hmodified⟩

theorem Holds.load_iff {b : PageBehaviour σ} {w : World σ} (h : m.Holds role w.disk written) :
    ((m.store.load role).run b w).1 = some (m.store.path role) ↔ w.wall ≤ m.store.lastValid written := by
  obtain ⟨session, hreadable, hread, hmodified⟩ := h
  exact Store.run_load_of_written hreadable hread hmodified

/-! ### One call -/

/-- A call that finds a session reuses it. -/
theorem reuses_of_load
    (h : ((m.store.load role).run c.page c.start).1 = some (m.store.path role)) : c.Reuses m role := by
  have hvisits := m.visits_of_load role c.page h
  have hload := (Store.looks_of_obeys (m.obeys_take_load role)).sameView_run c.page c.start
  obtain ⟨u, r, hlast, hlead, hrun⟩ := m.exists_getLast?_visits role c.page c.start
  rw [hvisits] at hlast
  obtain rfl : (⟨.load, c.start⟩ : Visit σ) = u := Option.some.inj hlast
  constructor
  · unfold Call.result
    rw [hrun]
    cases hlead with
    | reused hfound => rw [← Option.some.inj (h.symm.trans hfound)]
  · unfold Call.behind
    rw [hrun]
    dsimp only
    exact hload.disk
  · exact hvisits
  · intro e he
    exact m.looksAtFiles_of_load role c.page h he

/-- A call that finds none looks further, and only gives a path if it saves a session. -/
theorem looksFurther_of_load (h : ((m.store.load role).run c.page c.start).1 = none) :
    c.LooksFurther m role := by
  have hstage : (m.following role c.page ⟨.load, c.start⟩).stage = .resolve := by
    rw [following, take, Plan.bind_eq, Plan.run_bind, h]
    rfl
  constructor
  · rw [visits, visitsFrom, if_neg (by simp [Stage.left])]
    cases hnext : m.following role c.page ⟨.load, c.start⟩ with
    | mk stage v =>
        rw [hnext] at hstage
        obtain rfl : stage = .resolve := hstage
        rw [visitsFrom, if_neg (by simp [Stage.left])]
        exact ⟨v, List.mem_cons_of_mem _ List.mem_cons_self⟩
  · intro path hpath
    obtain ⟨⟨stage, v⟩, r, hlast, hlead, hrun⟩ := m.exists_getLast?_visits role c.page c.start
    unfold Call.result at hpath
    rw [hrun] at hpath
    obtain rfl : r = .ok path := hpath
    cases hlead with
    | reused hfound =>
        have hmem := List.mem_of_getLast? hlast
        rcases m.left_lt_of_mem_visitsFrom role c.page hmem with heq | hlt
        · have hworld : v = c.start := congrArg Visit.world heq
          rw [hworld, h] at hfound
          cases hfound
        · exact absurd hlt (by simp [Stage.left])
    | saved hsave =>
        refine ⟨⟨v, hlast⟩, path, ?_⟩
        unfold Call.result
        rw [hrun]

/-- What a call has saved is what the page has given out; it stands at the path of the role, under the time at which
the call ends. -/
theorem stands_of_saves (hfree : c.start.disk.tree.LinkFree) (h : c.Saves m role) :
    c.result m role = .ok (m.store.path role) ∧ ∃ session page now,
      (c.page.respond .storageState page now).outcome = .ok session ∧
        (c.behind m role).disk.HasFile (m.store.path role) (.text session.written) (c.behind m role).wall := by
  obtain ⟨⟨v, hlast⟩, path, hpath⟩ := h
  obtain ⟨u, r, hlast', hlead, hrun⟩ := m.exists_getLast?_visits role c.page c.start
  obtain rfl : (⟨.save, v⟩ : Visit σ) = u := Option.some.inj (hlast.symm.trans hlast')
  have hv := m.linkFree_of_mem_visitsFrom role c.page (List.mem_of_getLast? hlast) hfree
  have hresult := hpath
  unfold Call.result at hresult
  rw [hrun] at hresult
  obtain rfl : r = .ok path := hresult
  cases hlead with
  | saved hsave =>
      obtain ⟨hplace, session, hexport, hfile⟩ := written_of_run_save hsave
      have hbehind : c.behind m role = ((m.save role).run c.page v).2 := by
        unfold Call.behind
        rw [hrun, run_take_save, run_save]
      have hstands := hfile hv
      rw [← hbehind, hplace] at hstands
      rw [hplace] at hpath
      exact ⟨hpath, session, v.page, v.now, hexport, hstands⟩

theorem young_of_saves (hfree : c.start.disk.tree.LinkFree) (h : c.Saves m role) {modified : Int}
    (hmodified : (c.behind m role).disk.modified (m.store.path role) = .ok modified) :
    (c.behind m role).wall ≤ m.store.lastValid modified := by
  obtain ⟨-, session, page, now, -, hfile⟩ := stands_of_saves hfree h
  rw [hfile.modified] at hmodified
  obtain rfl := Except.ok.inj hmodified
  exact m.store.le_lastValid_self _

theorem holds_of_saves (hfree : c.start.disk.tree.LinkFree) (hread : c.ExportsReadable) (h : c.Saves m role) :
    c.result m role = .ok (m.store.path role) ∧
      m.Holds role (c.behind m role).disk (c.behind m role).wall := by
  obtain ⟨hresult, session, page, now, hexport, hfile⟩ := stands_of_saves hfree h
  exact ⟨hresult, session, hread page now session hexport, hfile.read, hfile.modified⟩

theorem load_eq_none {b : PageBehaviour σ} {w : World σ} {session : StoredSession} {modified : Int}
    (hfile : w.disk.HasFile (m.store.path role) (.text session.written) modified) (hs : ¬ session.Readable) :
    ((m.store.load role).run b w).1 = none := by
  cases hload : ((m.store.load role).run b w).1 with
  | none => rfl
  | some path =>
      have hfound := Store.run_load_eq_some_iff.mp hload
      obtain ⟨-, -, -, t, ht⟩ := Store.isPathValidAt_eq_true_iff.mp hfound.2
      obtain ⟨content, hcontent, hdecode⟩ := Store.readSession_eq_ok_iff.mp ht
      rw [hfound.1, hfile.read] at hcontent
      obtain rfl := Except.ok.inj hcontent
      exact absurd ⟨t, hdecode⟩ hs

theorem run_ensure_of_load_none {b : PageBehaviour σ} {w : World σ}
    (h : ((m.store.load role).run b w).1 = none) :
    ((m.ensure role).run b w).1 = ((m.rest role .resolve).run b w).1 := by
  have hlooks := (Store.looks_of_obeys (m.obeys_take_load role)).alike_run b w
  have hstage : ((m.take role .load).run b w).1 = .resolve := by
    rw [take, Plan.bind_eq, Plan.run_bind, h]
    rfl
  rw [run_ensure, rest_eq, Plan.run_bind, hstage]
  exact (Plan.run_of_alike b (m.rest role .resolve) hlooks).1

/-! ### Runs of calls -/

theorem start_le_of_mem {calls : List (Call σ)} (hrun : (c :: calls).IsChain (Call.Undisturbed m role))
    (hd : d ∈ calls) : c.start.wall ≤ d.start.wall := by
  induction calls generalizing c with
  | nil => cases hd
  | cons e calls ih =>
      obtain ⟨hnext, hrest⟩ := List.isChain_cons_cons.mp hrun
      have hcall : c.start.wall ≤ (c.behind m role).wall := Plan.wall_le_run c.page (m.ensure role) c.start
      have hlater := hnext.later
      rcases List.mem_cons.mp hd with rfl | hd
      · omega
      · have hrest := ih hrest hd
        omega

/-- As long as the calls of a run start no later than the last instant of a session, the session stays. -/
theorem holds_start {between after : List (Call σ)}
    (hrun : (c :: (between ++ d :: after)).IsChain (Call.Undisturbed m role))
    (hold : m.Holds role (c.behind m role).disk written)
    (hearly : ∀ e ∈ between, e.start.wall ≤ m.store.lastValid written) : m.Holds role d.start.disk written := by
  induction between generalizing c with
  | nil =>
      obtain ⟨hnext, -⟩ := List.isChain_cons_cons.mp hrun
      exact hold.of_sameAt hnext.file
  | cons e between ih =>
      obtain ⟨hnext, hrest⟩ := List.isChain_cons_cons.mp hrun
      rw [List.forall_mem_cons] at hearly
      have hstart := hold.of_sameAt hnext.file
      have hreuses := reuses_of_load (hstart.load_iff.mpr hearly.1)
      have hbehind : m.Holds role (e.behind m role).disk written := by
        rw [hreuses.disk]
        exact hstart
      exact ih hrest hbehind hearly.2

/-- **Reuse until a session expires.**  In a run of calls for a role, at times that do not go back and with the path
of the role left alone between them, let a call save a session that can be read.  Every later call that starts no
later than the last valid instant of the session gives the same path, and neither signs on nor calls the page nor
changes a file; the first one that starts behind that instant does not reuse the session.  So the next call that
saves one does so behind that instant.  The last instant is as many minutes after the save as the settings say, as
far as 64 bits of seconds reach. -/
theorem reuse_until_expired {calls before between after : List (Call σ)}
    (hrun : calls.IsChain (Call.Undisturbed m role)) (hfree : ∀ c ∈ calls, c.start.disk.tree.LinkFree)
    (hread : ∀ c ∈ calls, c.ExportsReadable) (hcalls : calls = before ++ c :: (between ++ d :: after))
    (hsave : c.Saves m role) :
    (d.start.wall ≤ m.store.lastValid (c.behind m role).wall →
        d.Reuses m role ∧ d.result m role = c.result m role) ∧
      ((∀ e ∈ between, e.start.wall ≤ m.store.lastValid (c.behind m role).wall) →
        m.store.lastValid (c.behind m role).wall < d.start.wall → d.LooksFurther m role) ∧
      (d.Saves m role → m.store.lastValid (c.behind m role).wall < (d.behind m role).wall) ∧
      ∀ written now : Int, now - written ≤ (UInt64.size - 1) * 1000 →
        (now ≤ m.store.lastValid written ↔ now ≤ written + m.settings.store.maxAgeMinutes * 60 * 1000) := by
  have hmem : c ∈ calls := by
    rw [hcalls]
    simp
  obtain ⟨hresult, hold⟩ := holds_of_saves (hfree c hmem) (hread c hmem) hsave
  have hchain : (c :: (between ++ d :: after)).IsChain (Call.Undisturbed m role) := by
    rw [hcalls] at hrun
    exact hrun.right_of_append
  have hreuse : d.start.wall ≤ m.store.lastValid (c.behind m role).wall → d.Reuses m role := by
    intro hearly
    -- No call starts behind the next one, so all calls in between have started early enough, too.
    have hbetween : ∀ e ∈ between, e.start.wall ≤ m.store.lastValid (c.behind m role).wall := by
      intro e he
      obtain ⟨first, rest, rfl⟩ := List.append_of_mem he
      have hfrom : (e :: (rest ++ d :: after)).IsChain (Call.Undisturbed m role) := by
        have hsplit : c :: (first ++ e :: rest ++ d :: after) = (c :: first) ++ (e :: (rest ++ d :: after)) := by
          simp
        rw [hsplit] at hchain
        exact hchain.right_of_append
      have hle := start_le_of_mem hfrom (d := d) (by simp)
      omega
    exact reuses_of_load ((holds_start hchain hold hbetween).load_iff.mpr hearly)
  refine ⟨?_, ?_, ?_, ?_⟩
  · intro hearly
    have hreuses := hreuse hearly
    exact ⟨hreuses, hreuses.result.trans hresult.symm⟩
  · intro hbetween hlate
    have hstart := holds_start hchain hold hbetween
    apply looksFurther_of_load
    cases hload : ((m.store.load role).run d.page d.start).1 with
    | none => rfl
    | some path =>
        rw [(m.store.valid_of_run_load d.page role d.start hload).1] at hload
        have hearly := hstart.load_iff.mp hload
        omega
  · intro hagain
    have hlate : ¬ d.start.wall ≤ m.store.lastValid (c.behind m role).wall := by
      intro hearly
      obtain ⟨⟨v, hlast⟩, -⟩ := hagain
      rw [(hreuse hearly).visits] at hlast
      cases hlast
    have hcall : d.start.wall ≤ (d.behind m role).wall := Plan.wall_le_run d.page (m.ensure role) d.start
    omega
  · intro written now
    exact Store.le_lastValid_iff

/-- The call of the page that shows the application. -/
def homeCall : Call Unit := ⟨homePage, homeWorld⟩

theorem saves_homeCall : homeCall.Saves homeManager "admin" := by
  have hload : ((homeManager.store.load "admin").run homePage homeWorld).1 = none := rfl
  have hresult : ((homeManager.ensure "admin").run homePage homeWorld).1 = .ok ".auth-states/admin.json" := rfl
  have hfurther : homeCall.LooksFurther homeManager "admin" := looksFurther_of_load hload
  exact hfurther.2 _ hresult

theorem exportsReadable_homeCall : homeCall.ExportsReadable := by
  intro page now session hexport
  obtain rfl : {} = session := Except.ok.inj hexport
  exact StoredSession.Exportable.readable ⟨trivial, trivial, by decide⟩

/-- Where the page shows the application, its session is saved, used for an hour, and not used any longer. -/
theorem reuse_until_expired_homeCall :
    homeCall.Saves homeManager "admin" ∧
      (homeCall.later homeManager "admin" 3600000).Reuses homeManager "admin" ∧
      ((homeCall.later homeManager "admin" 3600000).later homeManager "admin" 1).LooksFurther
        homeManager "admin" := by
  have hsave := saves_homeCall
  have hclock : homeCall.start.wallStopped = false := rfl
  have hfree : homeCall.start.disk.tree.LinkFree := linkFree_homeWorld
  have hread := exportsReadable_homeCall
  have hage : homeManager.store.maxAge * 1000 = 3600000 := rfl
  generalize homeCall = first at hsave hclock hfree hread ⊢
  generalize homeManager = m at hsave hage ⊢
  have hlast : (first.later m "admin" 3600000).start.wall = m.store.lastValid (first.behind m "admin").wall := by
    rw [Call.wall_later hclock, Store.lastValid]
    omega
  have hclock' : (first.later m "admin" 3600000).start.wallStopped = false :=
    Call.frozen_later.2.2.trans hclock
  have hrun : [first, first.later m "admin" 3600000, (first.later m "admin" 3600000).later m "admin" 1].IsChain
      (Call.Undisturbed m "admin") :=
    .cons_cons Call.undisturbed_later (.cons_cons Call.undisturbed_later (.singleton _))
  have hall : ∀ c ∈ [first, first.later m "admin" 3600000, (first.later m "admin" 3600000).later m "admin" 1],
      c.start.disk.tree.LinkFree ∧ c.ExportsReadable := by
    simp only [List.forall_mem_cons, List.not_mem_nil, false_imp_iff, implies_true, and_true]
    have hfree' : (first.later m "admin" 3600000).start.disk.tree.LinkFree := Call.linkFree_later hfree
    have hread' : (first.later m "admin" 3600000).ExportsReadable := Call.exportsReadable_later hread
    exact ⟨⟨hfree, hread⟩, ⟨hfree', hread'⟩, Call.linkFree_later hfree', Call.exportsReadable_later hread'⟩
  refine ⟨hsave, ?_, ?_⟩
  · have hcalls : [first, first.later m "admin" 3600000, (first.later m "admin" 3600000).later m "admin" 1] =
        [] ++ first :: ([] ++ first.later m "admin" 3600000 ::
          [(first.later m "admin" 3600000).later m "admin" 1]) := rfl
    have hreuses := reuse_until_expired hrun (fun c hc => (hall c hc).1) (fun c hc => (hall c hc).2) hcalls hsave
    exact (hreuses.1 (le_of_eq hlast)).1
  · have hcalls : [first, first.later m "admin" 3600000, (first.later m "admin" 3600000).later m "admin" 1] =
        [] ++ first :: ([first.later m "admin" 3600000] ++
          (first.later m "admin" 3600000).later m "admin" 1 :: []) := rfl
    have hfurther := reuse_until_expired hrun (fun c hc => (hall c hc).1) (fun c hc => (hall c hc).2) hcalls hsave
    refine hfurther.2.1 (List.forall_mem_singleton.mpr (le_of_eq hlast)) ?_
    have hcall : (first.later m "admin" 3600000).start.wall ≤
        ((first.later m "admin" 3600000).behind m "admin").wall := Plan.wall_le_run _ (m.ensure "admin") _
    rw [Call.wall_later hclock', ← hlast]
    omega

end SignOn.Manager
