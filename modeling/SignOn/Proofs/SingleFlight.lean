import SignOn.Proofs.Interleavings
import SignOn.Proofs.Reuse
import SignOn.Proofs.SessionEffects

/-! # One login for all calls

* `Store.Leaves` is what others may do to the world while a role is signed on: they leave its two files.
* `Plan.Sure` says what a plan comes to whatever the others do between its requests.  A save puts the session in place
  (`sure_save`), and where one is in place that has not expired, the call finds it (`sure_load`).
* In a run of `Quiet` moves the first call of a role goes its own way (`Leading`), and if it succeeds and what it saves
  lasts, all others follow it without signing on (`Following`): `Flight` is kept by every move (`Flight.step`).
* `single_flight` puts this together with what holds of all runs.  `both_save` is about sessions that do not last. -/

namespace SignOn

open Files (Disk)

/-- If a session comes back, it can be read again once it has been written. -/
def Request.Readable : (r : Request) → r.Reply → Prop
  | .page .storageState, x => ∀ session : StoredSession, x = Except.ok session → session.Readable
  | _, _ => True

theorem Request.LooksAtFiles.readable {r : Request} (h : r.LooksAtFiles) (x : r.Reply) : r.Readable x := by
  cases r with
  | page c => exact h.elim
  | _ => trivial

section

variable {σ α β : Type} {w v v' : World σ} {p p' : Plan α} {r : Request} {x : Option r.Reply}

theorem World.Answers.linkFree {x : r.Reply} (h : w.Answers r x v) (hw : w.disk.tree.LinkFree) :
    v.disk.tree.LinkFree := by
  cases r with
  | file op =>
      have hstep := World.linkFree_fileStep op hw
      have hanswer : World.fileStep op w = (x, v) := h
      rw [hanswer] at hstep
      exact hstep
  | wallClock =>
      obtain ⟨-, rfl⟩ := h
      exact hw
  | _ =>
      obtain rfl := h
      exact hw

theorem World.Answers.hasFile_of_write {path content : String} {u : Unit}
    (h : w.Answers (.file (.write path content)) (.ok u) v) (hw : w.disk.tree.LinkFree) :
    v.disk.HasFile path (.text content) w.wall := by
  cases hwrite : w.disk.write w.wall path (.text content) with
  | error e =>
      have hanswer := (World.fileStep_write_error hwrite).symm.trans h
      cases hanswer
  | ok d =>
      have hanswer := (World.fileStep_write_ok hwrite).symm.trans h
      cases hanswer
      exact Disk.hasFile_of_write hw hwrite

theorem World.Answers.hasFile_of_rename {source target : String} {u : Unit} {c : Files.Content} {m : Int}
    (h : w.Answers (.file (.rename source target)) (.ok u) v) (hw : w.disk.tree.LinkFree)
    (hfile : w.disk.HasFile source c m) : v.disk.HasFile target c m := by
  cases hmove : w.disk.rename w.wall source target with
  | error e =>
      have hanswer := (World.fileStep_rename_error hmove).symm.trans h
      cases hanswer
  | ok d =>
      have hanswer := (World.fileStep_rename_ok hmove).symm.trans h
      cases hanswer
      exact Disk.hasFile_of_rename hw hfile hmove

theorem World.Answers.disk_eq {x : r.Reply} (h : w.Answers r x v) (hr : r.LeavesFiles) : v.disk = w.disk := by
  cases r with
  | file op =>
      have hanswer : World.fileStep op w = (x, v) := h
      have hdisk := congrArg (fun a => a.2.disk) hanswer
      cases op with
      | read | modified | names => exact hdisk.symm
      | _ => exact hr.elim
  | wallClock =>
      obtain ⟨-, rfl⟩ := h
      rfl
  | _ =>
      obtain rfl := h
      rfl

namespace Plan

theorem Turns.linkFree (h : p.Turns w r x v p') (hw : w.disk.tree.LinkFree) : v.disk.tree.LinkFree := by
  cases h with
  | answered hx => exact hx.linkFree hw
  | inTime hx => exact hx.linkFree hw
  | givenUp hr => exact hw

theorem Turns.disk_eq (h : p.Turns w r x v p') (hr : r.LeavesFiles) : v.disk = w.disk := by
  cases h with
  | answered hx => exact hx.disk_eq hr
  | inTime hx => exact hx.disk_eq hr
  | givenUp hr => rfl

theorem Obeys.noticing {A : Request → Prop} {Q : α → Prop} (hp : p.Obeys A Q) (now : Int) :
    (p.noticing now).Obeys A Q := by
  unfold Plan.noticing
  split
  · exact hp.2 now
  · exact hp

theorem Obeys.turns {A : Request → Prop} {Q : α → Prop} (hp : p.Obeys A Q) (h : p.Turns w r x v p') :
    A r ∧ p'.Obeys A Q := by
  cases h with
  | answered hx => exact ⟨hp.1, hp.2 _⟩
  | inTime hx => exact ⟨hp.1, hp.2 _⟩
  | givenUp hr => exact ⟨hp.1, hp.2 _⟩

/-- Whatever others do between the requests of a plan, it ends with what is asked for. -/
def Sure (L : World σ → World σ → Prop) (Q : α → World σ → Prop) : Plan α → World σ → Prop
  | .done a, w => ∀ v, L w v → Q a v
  | .ask r next, w => ∀ v, L w v → ∀ x v', v.Answers r x v' → r.Readable x → (next x).Sure L Q v'
  | .askBy _ r next, w => ∀ v, L w v →
      (∀ x v', v.Answers r x v' → r.Readable x → (next (some x)).Sure L Q v') ∧ (next none).Sure L Q v

variable {L : World σ → World σ → Prop} {Q Q' : α → World σ → Prop} {R : β → World σ → Prop}

namespace Sure

theorem turns (hp : p.Sure L Q w) (hL : ∀ w, L w w) (h : p.Turns w r x v p')
    (hx : ∀ y, x = some y → r.Readable y) : p'.Sure L Q v := by
  cases h with
  | answered hanswer => exact hp w (hL w) _ _ hanswer (hx _ rfl)
  | inTime hanswer => exact (hp w (hL w)).1 _ _ hanswer (hx _ rfl)
  | givenUp hr => exact (hp w (hL w)).2

theorem of_left (hL : ∀ {u v w}, L u v → L v w → L u w) (hp : p.Sure L Q w) (hv : L w v) : p.Sure L Q v := by
  cases p with
  | done a => exact fun u hu => hp u (hL hv hu)
  | ask r next => exact fun u hu => hp u (hL hv hu)
  | askBy limit r next => exact fun u hu => hp u (hL hv hu)

theorem mono (hp : p.Sure L Q w) (hQ : ∀ a v, Q a v → Q' a v) : p.Sure L Q' w := by
  induction p generalizing w with
  | done a => exact fun v hv => hQ a v (hp v hv)
  | ask r next ih => exact fun v hv x v' hx hreadable => ih x (hp v hv x v' hx hreadable)
  | askBy limit r next ih =>
      intro v hv
      obtain ⟨hsome, hnone⟩ := hp v hv
      exact ⟨fun x v' hx hreadable => ih (some x) (hsome x v' hx hreadable), ih none hnone⟩

theorem bind {f : α → Plan β} (hL : ∀ w, L w w) (hp : p.Sure L (fun a v => (f a).Sure L R v) w) :
    (p.bind f).Sure L R w := by
  induction p generalizing w with
  | done a => exact hp w (hL w)
  | ask r next ih => exact fun v hv x v' hx hreadable => ih x (hp v hv x v' hx hreadable)
  | askBy limit r next ih =>
      intro v hv
      obtain ⟨hsome, hnone⟩ := hp v hv
      exact ⟨fun x v' hx hreadable => ih (some x) (hsome x v' hx hreadable), ih none hnone⟩

theorem ask {f : r.Reply → Plan β}
    (h : ∀ v, L w v → ∀ x v', v.Answers r x v' → r.Readable x → (f x).Sure L R v') :
    ((request r).bind f).Sure L R w := h

end Sure

theorem Obeys.sure {A : Request → Prop} {Q : α → Prop} (hp : p.Obeys A Q) (w : World σ) :
    p.Sure L (fun a _ => Q a) w := by
  induction p generalizing w with
  | done a => exact fun _ _ => hp
  | ask r next ih => exact fun v hv x v' hx hreadable => ih x (hp.2 x) v'
  | askBy limit r next ih =>
      exact fun v hv => ⟨fun x v' hx hreadable => ih (some x) (hp.2 _) v', ih none (hp.2 _) v⟩

end Plan

end

namespace Store

variable {σ : Type} {s : Store} {role : String} {w v u : World σ}

/-! ### What others leave -/

/-- The files of a role are left: the one of its session, and the one beside that it is first written to. -/
structure Leaves (s : Store) (role : String) (w v : World σ) : Prop where
  linkFree : w.disk.tree.LinkFree → v.disk.tree.LinkFree
  session : ∀ c m, w.disk.HasFile (s.path role) c m → v.disk.HasFile (s.path role) c m
  beside : ∀ c m, w.disk.HasFile (temporary (s.path role)) c m → v.disk.HasFile (temporary (s.path role)) c m

theorem Leaves.of_disk (h : v.disk = w.disk) : s.Leaves role w v := by
  constructor
  · rw [h]
    exact id
  · rw [h]
    exact fun _ _ => id
  · rw [h]
    exact fun _ _ => id

theorem Leaves.refl (w : World σ) : s.Leaves role w w := .of_disk rfl

theorem Leaves.trans (h : s.Leaves role u v) (h' : s.Leaves role v w) : s.Leaves role u w where
  linkFree hu := h'.linkFree (h.linkFree hu)
  session c m hc := h'.session c m (h.session c m hc)
  beside c m hc := h'.beside c m (h.beside c m hc)

/-- A session that can be read stands at the path of the role. -/
def Kept (s : Store) (role : String) (w : World σ) : Prop :=
  ∃ (session : StoredSession) (modified : Int), session.Readable ∧
    w.disk.HasFile (s.path role) (.text session.written) modified

theorem Kept.leaves (h : s.Kept role w) (hv : s.Leaves role w v) : s.Kept role v := by
  obtain ⟨session, modified, hs, hfile⟩ := h
  exact ⟨session, modified, hs, hv.session _ _ hfile⟩

/-! ### What is sure of the store -/

theorem sure_write {session : StoredSession} (hs : session.Readable) (hw : w.disk.tree.LinkFree) :
    (s.write role session).Sure (s.Leaves role)
      (fun r v => ∀ path, r = .ok path → path = s.path role ∧ s.Kept role v) w := by
  unfold write
  refine .ask fun v₀ h₀ made v₁ hmade _ => ?_
  have hv₁ := hmade.linkFree (h₀.linkFree hw)
  cases made with
  | error e => exact fun _ _ _ h => nomatch h
  | ok _ =>
      refine .ask fun v₂ h₂ written v₃ hwritten _ => ?_
      have hv₂ := h₂.linkFree hv₁
      cases written with
      | error e => exact fun _ _ _ h => nomatch h
      | ok _ =>
          have hbeside := hwritten.hasFile_of_write hv₂
          refine .ask fun v₄ h₄ moved v₅ hmoved _ => ?_
          have hv₄ := h₄.linkFree (hwritten.linkFree hv₂)
          cases moved with
          | error e => exact fun _ _ _ h => nomatch h
          | ok _ =>
              have hfile := hmoved.hasFile_of_rename hv₄ (h₄.beside _ _ hbeside)
              refine .ask fun v₆ h₆ u v₇ hlogged _ => ?_
              obtain rfl : v₇ = v₆ := hlogged
              intro v₈ h₈ path hpath
              exact ⟨(Except.ok.inj hpath).symm, _, _, hs, h₈.session _ _ (h₆.session _ _ hfile)⟩

theorem sure_save (hw : w.disk.tree.LinkFree) :
    (s.save role).Sure (s.Leaves role)
      (fun r v => ∀ path, r = .ok path → path = s.path role ∧ s.Kept role v) w := by
  unfold save
  refine .ask fun v hv x v' hx hreadable => ?_
  obtain rfl : v' = v := hx
  cases x with
  | error e => exact fun _ _ _ h => nomatch h
  | ok session => exact sure_write (hreadable session rfl) (hv.linkFree hw)

theorem sure_isValidAt {now : Int} (hkept : s.Kept role w)
    (hnow : ∀ modified, w.disk.modified (s.path role) = .ok modified → now ≤ s.lastValid modified) :
    (s.isValidAt role now).Sure (s.Leaves role) (fun valid _ => valid = true) w := by
  obtain ⟨session, modified, ⟨t, ht⟩, hfile⟩ := hkept
  have hage := age_le_iff.mpr (hnow modified hfile.modified)
  unfold isValidAt isPathValidAt
  refine .ask fun v₀ h₀ x v₁ hlooked _ => ?_
  have hv₀ := h₀.session _ _ hfile
  obtain ⟨rfl, rfl⟩ := Prod.mk.inj (hlooked : (v₀.disk.modified (s.path role), v₀) = (x, v₁))
  rw [hv₀.modified]
  dsimp only
  rw [if_neg (Nat.not_lt.mpr hage)]
  unfold readSession
  refine .bind .refl (.ask fun v₂ h₂ x v₃ hread _ => ?_)
  have hv₂ := h₂.session _ _ hv₀
  obtain ⟨rfl, rfl⟩ := Prod.mk.inj (hread : (v₂.disk.read (s.path role), v₂) = (x, v₃))
  rw [hv₂.read]
  dsimp only
  rw [Files.Content.symbols, ht]
  exact fun _ _ _ _ => rfl

end Store

namespace Manager

variable {σ : Type} {m : Manager} {role : String} {w v : World σ}

/-- The part of a call that ends with the path of the role. -/
def success (m : Manager) (role : String) : Part :=
  .ensuring (.ended (.ok (m.store.path role)))

/-- A call that finds a session ends with its path. -/
theorem sure_load {now : Int} (hkept : m.store.Kept role w)
    (hnow : ∀ modified, w.disk.modified (m.store.path role) = .ok modified → now ≤ m.store.lastValid modified) :
    ((m.part role (.ensuring .load)).noticing now).Sure (m.store.Leaves role)
      (fun q _ => q = m.success role) w := by
  refine .bind .refl (.bind .refl (.bind .refl ((Store.sure_isValidAt hkept hnow).mono fun valid v hvalid => ?_)))
  rw [hvalid]
  refine .ask fun v₀ h₀ u v₁ hlogged _ => ?_
  obtain rfl : v₁ = v₀ := hlogged
  intro v₂ h₂
  refine .ask fun v₃ h₃ u v₄ hlogged _ => ?_
  obtain rfl : v₄ = v₃ := hlogged
  exact fun _ _ _ _ => rfl

/-- A call that has not got the lock yet. -/
def Caller.Unbegun (c : Caller) : Prop :=
  (c.phase = .called ∨ ∃ l, c.phase = .waiting l) ∧ c.past = []

section

variable {ι : Type} {i : ι} {c c' : Caller} {move : Move ι}

theorem Own.phase_ne (h : m.Own i c w move c' v) {q : Part} : c.phase ≠ .ended q := by
  intro hq
  cases h <;> simp_all

theorem Own.linkFree (h : m.Own i c w move c' v) (hw : w.disk.tree.LinkFree) : v.disk.tree.LinkFree := by
  cases h with
  | go h hturn => exact hturn.linkFree hw
  | _ => exact hw

theorem Own.unbegun (h : m.Own i c w move c' v) (hc : c.Unbegun) :
    (move = .enter i ∧ ∃ l, c'.phase.lock? = some l) ∨ c'.Unbegun ∧ v = w := by
  obtain ⟨hphase, hpast⟩ := hc
  cases h with
  | ask l h => exact .inr ⟨⟨.inr ⟨l, rfl⟩, hpast⟩, rfl⟩
  | enter h => exact .inl ⟨rfl, _, rfl⟩
  | go h | next h | leave h => simp [h] at hphase

end

/-! ### The first call -/

/-- Parts that a call has gone through on the way to a session, the last one first. -/
inductive Trail : List Part → Prop
  | load : Trail [.ensuring .load]
  | cons {s s' : Stage} {past : List Part} (h : Trail (.ensuring s :: past)) (hs : s.Before s') :
      Trail (.ensuring s' :: .ensuring s :: past)

namespace Trail

variable {past : List Part} {p : Provider} {c : Credentials}

theorem of_load (h : Trail (.ensuring .load :: past)) : past = [] := by
  cases h with
  | load => rfl
  | cons h hs => cases hs

theorem of_resolve (h : Trail (.ensuring .resolve :: past)) : past = [.ensuring .load] := by
  cases h with
  | cons h hs =>
      cases hs with
      | missing => rw [h.of_load]

theorem of_check (h : Trail (.ensuring (.check p c) :: past)) :
    past = [.ensuring .resolve, .ensuring .load] := by
  cases h with
  | cons h hs =>
      cases hs with
      | resolved => rw [h.of_resolve]

theorem of_save (h : Trail (.ensuring .save :: past)) :
    ∃ p c, past = [.ensuring (.check p c), .ensuring .resolve, .ensuring .load] ∨
      past = [.ensuring (.login p c), .ensuring (.check p c), .ensuring .resolve, .ensuring .load] := by
  cases h with
  | cons h hs =>
      cases hs with
      | shown p c => exact ⟨p, c, .inl (by rw [h.of_check])⟩
      | loggedIn p c =>
          cases h with
          | cons h hs =>
              cases hs with
              | hidden => exact ⟨p, c, .inr (by rw [h.of_check])⟩

end Trail

/-- A call has saved a session and given a path. -/
def Caller.Succeeded (c : Caller) : Prop :=
  (∃ path, c.phase = .ended (.ensuring (.ended (.ok path)))) ∧ .ensuring .save ∈ c.past

/-- A call has gone through each stage once, has saved a session, and has given the path of the role. -/
structure SignedOn (m : Manager) (role : String) (c : Caller) : Prop where
  phase : c.phase = .ended (m.success role)
  past : ∃ p cr,
    c.past = [m.success role, .ensuring .save, .ensuring (.check p cr), .ensuring .resolve, .ensuring .load] ∨
      c.past = [m.success role, .ensuring .save, .ensuring (.login p cr), .ensuring (.check p cr),
        .ensuring .resolve, .ensuring .load]

/-- What comes behind a stage; behind a save that succeeds the session is in place. -/
def After (m : Manager) (role : String) (s : Stage) (q : Part) (w : World σ) : Prop :=
  ∃ s', q = .ensuring s' ∧ s.Before s' ∧
    (s = .save → ∀ path, s' = .ended (.ok path) → path = m.store.path role ∧ m.store.Kept role w)

/-- A call that has not ended, whatever others do that leave the files of the role. -/
inductive Leading (m : Manager) (role : String) (w : World σ) : Phase → List Part → Prop
  | called : Leading m role w .called []
  | waiting (l : Nat) : Leading m role w (.waiting l) []
  | inside {l : Nat} {p : Plan Part} {s : Stage} {past : List Part} (htrail : Trail (.ensuring s :: past))
      (hsure : p.Sure (m.store.Leaves role) (m.After role s) w) :
      Leading m role w (.inside l p) (.ensuring s :: past)

theorem obeys_after {s : Stage} (hs : s.left ≠ 0) (hsave : s ≠ .save) :
    (m.part role (.ensuring s)).Obeys (fun _ => True) fun q => ∀ v : World σ, m.After role s q v := by
  refine (m.obeys_take role hs).bind fun s' hs' v => ⟨s', rfl, hs', fun h => absurd h hsave⟩

theorem sure_part {s : Stage} (hs : s.left ≠ 0) (hw : w.disk.tree.LinkFree) :
    (m.part role (.ensuring s)).Sure (m.store.Leaves role) (m.After role s) w := by
  by_cases hsave : s = .save
  · obtain rfl := hsave
    refine .bind .refl (.bind .refl (.bind .refl ((Store.sure_save hw).mono fun r v hr => ?_)))
    intro v₁ h₁ v₂ h₂ v₃ h₃
    refine ⟨_, rfl, .saved _, fun _ path hpath => ?_⟩
    cases r with
    | error e => cases Stage.ended.inj hpath
    | ok path' =>
        obtain rfl := Except.ok.inj (Stage.ended.inj hpath)
        obtain ⟨hplace, hkept⟩ := hr _ rfl
        exact ⟨hplace, hkept.leaves ((h₁.trans h₂).trans h₃)⟩
  · exact ((obeys_after hs hsave).sure w).mono fun q v hq => hq v

/-- A call ends with a session in place, or it gives no path that it has saved a session at. -/
theorem After.ended {s : Stage} {q : Part} {past : List Part} {c : Caller} (h : m.After role s q w)
    (htrail : Trail (.ensuring s :: past)) (hq : q.isLast = true) (hphase : c.phase = .ended q)
    (hpast : c.past = q :: .ensuring s :: past) :
    (m.SignedOn role c ∧ m.store.Kept role w) ∨ (∃ q, c.phase = .ended q) ∧ ¬ c.Succeeded := by
  obtain ⟨s', rfl, hs, hkept⟩ := h
  have hfailed : ∀ e, s' = .ended (.error e) → ¬ c.Succeeded := by
    rintro e rfl ⟨⟨path, hpath⟩, -⟩
    rw [hphase] at hpath
    cases hpath
  cases hs with
  | reused path =>
      refine .inr ⟨⟨_, hphase⟩, fun hsucceeded => ?_⟩
      have hmem := hsucceeded.2
      rw [hpast, htrail.of_load] at hmem
      simp at hmem
  | unresolved e => exact .inr ⟨⟨_, hphase⟩, hfailed e rfl⟩
  | refused p cr e => exact .inr ⟨⟨_, hphase⟩, hfailed e rfl⟩
  | saved r =>
      cases r with
      | error e => exact .inr ⟨⟨_, hphase⟩, hfailed e rfl⟩
      | ok path =>
          obtain ⟨hplace, hkept⟩ := hkept rfl path rfl
          have hsuccess : Part.ensuring (.ended (.ok path)) = m.success role := by rw [hplace, success]
          rw [hsuccess] at hphase hpast
          obtain ⟨p, cr, hbefore⟩ := htrail.of_save
          refine .inl ⟨⟨hphase, p, cr, ?_⟩, hkept⟩
          rw [hpast]
          rcases hbefore with hbefore | hbefore
          · exact .inl (by rw [hbefore])
          · exact .inr (by rw [hbefore])
  | missing | resolved | shown | hidden | loggedIn => cases hq

theorem Leading.leaves {phase : Phase} {past : List Part} (h : m.Leading role w phase past)
    (hv : m.store.Leaves role w v) : m.Leading role v phase past := by
  cases h with
  | called => exact .called
  | waiting l => exact .waiting l
  | inside htrail hsure => exact .inside htrail (hsure.of_left .trans hv)

theorem Leading.past_eq_nil {phase : Phase} {past : List Part} (h : m.Leading role w phase past)
    (hphase : phase.lock? = none) : past = [] := by
  cases h with
  | called => rfl
  | waiting l => rfl
  | inside htrail hsure => cases hphase

section

variable {ι : Type} {i : ι} {c c' : Caller} {move : Move ι}

/-- The first call goes on, or it ends: well, and then the session is in place, or not so well. -/
theorem Own.leading (h : m.Own i c w move c' v) (hrole : c.role = role) (hensures : c.finishes = false)
    (hw : w.disk.tree.LinkFree) (hreadable : ∀ r x, move = .go i r (some x) → r.Readable x)
    (hlead : m.Leading role w c.phase c.past) :
    m.Leading role v c'.phase c'.past ∨ (m.SignedOn role c' ∧ m.store.Kept role v) ∨
      (∃ q, c'.phase = .ended q) ∧ ¬ c'.Succeeded := by
  obtain ⟨role', finishes, phase, past⟩ := c
  obtain rfl : role' = role := hrole
  obtain rfl : finishes = false := hensures
  cases h with
  | ask l h =>
      obtain rfl : phase = .called := h
      cases hlead
      exact .inl (.waiting l)
  | enter h =>
      obtain rfl := h
      cases hlead
      have hobeys := @obeys_after σ m role' .load (by decide) Stage.noConfusion
      exact .inl (.inside .load (((hobeys.noticing w.wall).sure w).mono fun q v hq => hq v))
  | go h hturn =>
      obtain rfl := h
      cases hlead with
      | inside htrail hsure =>
          exact .inl (.inside htrail (hsure.turns .refl hturn fun y hy => hreadable _ y (by rw [hy])))
  | next h hq =>
      obtain rfl := h
      cases hlead with
      | inside htrail hsure =>
          obtain ⟨s', rfl, hs, -⟩ := hsure w (.refl w)
          have hleft : s'.left ≠ 0 := by
            cases s' <;> simp [Part.isLast, Stage.left] at hq ⊢
          exact .inl (.inside (.cons htrail hs) (sure_part hleft hw))
  | leave h hq =>
      obtain rfl := h
      cases hlead with
      | inside htrail hsure =>
          right
          exact (hsure w (.refl w)).ended htrail hq rfl rfl

/-! ### The calls behind it -/

/-- A call that finds the session and gives the path of the role, whatever others do that leave its files. -/
inductive Following (m : Manager) (role : String) (w : World σ) : Phase → List Part → Prop
  | called : Following m role w .called []
  | waiting (l : Nat) : Following m role w (.waiting l) []
  | inside {l : Nat} {p : Plan Part} (hlooks : p.Obeys Request.LooksAtFiles fun _ => True)
      (hsure : p.Sure (m.store.Leaves role) (fun q _ => q = m.success role) w) :
      Following m role w (.inside l p) [.ensuring .load]
  | ended : Following m role w (.ended (m.success role)) [m.success role, .ensuring .load]

theorem Following.leaves {phase : Phase} {past : List Part} (h : m.Following role w phase past)
    (hv : m.store.Leaves role w v) : m.Following role v phase past := by
  cases h with
  | called => exact .called
  | waiting l => exact .waiting l
  | inside hlooks hsure => exact .inside hlooks (hsure.of_left .trans hv)
  | ended => exact .ended

theorem Following.past_suffix {phase : Phase} {past : List Part} (h : m.Following role w phase past) :
    past <:+ [m.success role, .ensuring .load] := by
  cases h with
  | called => exact List.nil_suffix
  | waiting l => exact List.nil_suffix
  | inside hlooks hsure => exact List.suffix_cons _ _
  | ended => exact List.suffix_refl _

theorem Following.eq_success {q : Part} {past : List Part} (h : m.Following role w (.ended q) past) :
    q = m.success role := by
  cases h
  rfl

theorem Caller.Unbegun.following {c : Caller} (h : c.Unbegun) (m : Manager) (role : String) (w : World σ) :
    m.Following role w c.phase c.past := by
  obtain ⟨hphase, hpast⟩ := h
  rw [hpast]
  rcases hphase with hphase | ⟨l, hphase⟩
  · rw [hphase]
    exact .called
  · rw [hphase]
    exact .waiting l

/-- Where a session is in place, a call that gets the lock before it expires goes on to find it, and changes no
file. -/
theorem Own.following (h : m.Own i c w move c' v) (hrole : c.role = role) (hensures : c.finishes = false)
    (hkept : m.store.Kept role w)
    (hyoung : move = .enter i → ∀ modified, w.disk.modified (m.store.path role) = .ok modified →
      w.wall ≤ m.store.lastValid modified)
    (hfollow : m.Following role w c.phase c.past) :
    m.Following role v c'.phase c'.past ∧ v.disk = w.disk := by
  obtain ⟨role', finishes, phase, past⟩ := c
  obtain rfl : role' = role := hrole
  obtain rfl : finishes = false := hensures
  cases h with
  | ask l h =>
      obtain rfl : phase = .called := h
      cases hfollow
      exact ⟨.waiting l, rfl⟩
  | enter h =>
      obtain rfl := h
      cases hfollow
      have hlooks : (m.part role' (.ensuring .load)).Obeys Request.LooksAtFiles fun _ => True :=
        (m.obeys_take_load role').bind fun _ _ => trivial
      exact ⟨.inside (hlooks.noticing w.wall) (sure_load hkept (hyoung rfl)), rfl⟩
  | go h hturn =>
      obtain rfl := h
      cases hfollow with
      | inside hlooks hsure =>
          obtain ⟨hr, hlooks'⟩ := hlooks.turns hturn
          have hdisk := hturn.disk_eq hr.looks.leavesFiles
          exact ⟨.inside hlooks' (hsure.turns .refl hturn fun y _ => hr.readable y), hdisk⟩
  | next h hq =>
      obtain rfl := h
      cases hfollow with
      | inside hlooks hsure =>
          obtain rfl := hsure w (.refl w)
          cases hq
  | leave h hq =>
      obtain rfl := h
      cases hfollow with
      | inside hlooks hsure =>
          obtain rfl := hsure w (.refl w)
          exact ⟨.ended, rfl⟩

end

/-! ### All calls -/

section

variable {ι : Type} [DecidableEq ι] {f : ι} {S S' S₀ : Scene ι σ} {move : Move ι}

/-- A move as it may come while the calls of a role are under way: nobody else writes the files of the role, `f` is
the first of its calls to get the lock, and when another one gets it, the session that is in place has not expired. -/
structure Quiet (m : Manager) (role : String) (f : ι) (S : Scene ι σ) (move : Move ι) (S' : Scene ι σ) : Prop where
  others : (∀ i, move.caller? = some i → (S.callers i).role ≠ role) → m.store.Leaves role S.world S'.world
  first : ∀ i, move = .enter i → i ≠ f → (S.callers i).role = role → (S.callers f).past ≠ []
  young : ∀ i, move = .enter i → i ≠ f → (S.callers i).role = role → ∀ modified,
    S.world.disk.modified (m.store.path role) = .ok modified → S.world.wall ≤ m.store.lastValid modified

/-- A quiet move, in which `f` gets a session from the page only if it can be read again once it has been written. -/
structure Lasting (m : Manager) (role : String) (f : ι) (S : Scene ι σ) (move : Move ι) (S' : Scene ι σ) : Prop
    extends m.Quiet role f S move S' where
  readable : ∀ r x, move = .go f r (some x) → r.Readable x

/-- A quiet move, in which a call gets from the page what that gives to one that is alone. -/
structure QuietOn (b : PageBehaviour σ) (m : Manager) (role : String) (f : ι) (S : Scene ι σ) (move : Move ι)
    (S' : Scene ι σ) : Prop extends m.Quiet role f S move S' where
  answer : ∀ i r x, move = .go i r (some x) → x = (S.world.step b r).reply

/-- What holds of the calls of a role, of which `f` is the first one. -/
inductive Flight (m : Manager) (role : String) (f : ι) (S : Scene ι σ) : Prop
  | leading (hlead : m.Leading role S.world (S.callers f).phase (S.callers f).past)
      (hothers : ∀ i, i ≠ f → (S.callers i).role = role → (S.callers i).Unbegun)
  | signedOn (hsigned : m.SignedOn role (S.callers f)) (hkept : m.store.Kept role S.world)
      (hothers : ∀ i, i ≠ f → (S.callers i).role = role →
        m.Following role S.world (S.callers i).phase (S.callers i).past)
  | failed (hended : ∃ q, (S.callers f).phase = .ended q) (hfailed : ¬ (S.callers f).Succeeded)

section

variable (hflight : m.Flight role f S) (hstep : m.Step S move S') (hf : (S.callers f).role = role)

include hflight hstep hf

/-- Calls for other roles, and whatever else leaves the files of the role, change nothing. -/
theorem Flight.step_of_others (hforeign : ∀ i, move.caller? = some i → (S.callers i).role ≠ role)
    (hleaves : m.store.Leaves role S.world S'.world) : m.Flight role f S' := by
  have hsame : ∀ {i}, (S.callers i).role = role → S'.callers i = S.callers i :=
    fun {i} hi => hstep.caller_of_ne fun hmoves => hforeign i hmoves hi
  have hrole : ∀ {i}, (S'.callers i).role = role → (S.callers i).role = role :=
    fun {i} hi => (hstep.caller_eq i).1.symm.trans hi
  cases hflight with
  | leading hlead hunbegun =>
      refine .leading ?_ fun j hj hjrole => ?_
      · rw [hsame hf]
        exact hlead.leaves hleaves
      · rw [hsame (hrole hjrole)]
        exact hunbegun j hj (hrole hjrole)
  | signedOn hsigned hkept hfollow =>
      refine .signedOn ?_ (hkept.leaves hleaves) fun j hj hjrole => ?_
      · rw [hsame hf]
        exact hsigned
      · rw [hsame (hrole hjrole)]
        exact (hfollow j hj (hrole hjrole)).leaves hleaves
  | failed hended hfailed =>
      refine .failed ?_ ?_ <;> rw [hsame hf]
      · exact hended
      · exact hfailed

theorem Flight.step_of_first (hmoves : move.caller? = some f) (hensures : (S.callers f).finishes = false)
    (hw : S.world.disk.tree.LinkFree) (hreadable : ∀ r x, move = .go f r (some x) → r.Readable x) :
    m.Flight role f S' := by
  have hown := hstep.own hmoves
  cases hflight with
  | leading hlead hunbegun =>
      have hothers : ∀ j, j ≠ f → (S'.callers j).role = role → (S'.callers j).Unbegun := by
        intro j hj hjrole
        have hstays : move.caller? ≠ some j := fun h => hj (Option.some.inj (h.symm.trans hmoves))
        rw [hstep.caller_of_ne hstays] at hjrole ⊢
        exact hunbegun j hj hjrole
      rcases hown.leading hf hensures hw hreadable hlead with hlead | ⟨hsigned, hkept⟩ | ⟨hended, hfailed⟩
      · exact .leading hlead hothers
      · exact .signedOn hsigned hkept fun j hj hjrole => (hothers j hj hjrole).following m role _
      · exact .failed hended hfailed
  | signedOn hsigned hkept hfollow => exact absurd hsigned.phase hown.phase_ne
  | failed hended hfailed =>
      obtain ⟨q, hq⟩ := hended
      exact absurd hq hown.phase_ne

/-- Another call of the role moves: it waits until the first one has ended, and then finds its session. -/
theorem Flight.step_of_next {i : ι} (hmoves : move.caller? = some i) (hif : i ≠ f) (hi : (S.callers i).role = role)
    (hensures : (S.callers i).finishes = false) (hsound : S'.Sound) (hquiet : m.Quiet role f S move S') :
    m.Flight role f S' := by
  have hown := hstep.own hmoves
  have hstays : ∀ {j}, j ≠ i → S'.callers j = S.callers j :=
    fun {j} hj => hstep.caller_of_ne fun h => hj (Option.some.inj (h.symm.trans hmoves))
  have hrole : ∀ {j}, (S'.callers j).role = role → (S.callers j).role = role :=
    fun {j} hj => (hstep.caller_eq j).1.symm.trans hj
  have hfirst := hstays (Ne.symm hif)
  cases hflight with
  | leading hlead hunbegun =>
      rcases hown.unbegun (hunbegun i hif hi) with ⟨henter, l, hinside⟩ | ⟨hi', hworld⟩
      · have hbegun := hquiet.first i henter hif hi
        cases hlock : (S.callers f).phase.lock? with
        | none => exact absurd (hlead.past_eq_nil hlock) hbegun
        | some l' =>
            rw [← hfirst] at hlock
            refine absurd (hsound.exclusive hinside hlock ?_) hif
            rw [(hstep.caller_eq i).1, (hstep.caller_eq f).1, hi, hf]
      · refine .leading ?_ fun j hj hjrole => ?_
        · rw [hfirst, hworld]
          exact hlead
        · by_cases hji : j = i
          · rw [hji]
            exact hi'
          · rw [hstays hji]
            exact hunbegun j hj (hrole hjrole)
  | signedOn hsigned hkept hfollow =>
      have hyoung := fun h => hquiet.young i h hif hi
      obtain ⟨hi', hdisk⟩ := hown.following hi hensures hkept hyoung (hfollow i hif hi)
      have hleaves : m.store.Leaves role S.world S'.world := .of_disk hdisk
      refine .signedOn ?_ (hkept.leaves hleaves) fun j hj hjrole => ?_
      · rw [hfirst]
        exact hsigned
      · by_cases hji : j = i
        · rw [hji]
          exact hi'
        · rw [hstays hji]
          exact (hfollow j hj (hrole hjrole)).leaves hleaves
  | failed hended hfailed =>
      refine .failed ?_ ?_ <;> rw [hfirst]
      · exact hended
      · exact hfailed

end

theorem Flight.step (hflight : m.Flight role f S) (hstep : m.Step S move S') (hquiet : m.Lasting role f S move S')
    (hsound : S'.Sound) (hw : S.world.disk.tree.LinkFree) (hf : (S.callers f).role = role)
    (hensures : ∀ i, (S.callers i).role = role → (S.callers i).finishes = false) : m.Flight role f S' := by
  by_cases hmover : ∃ i, move.caller? = some i ∧ (S.callers i).role = role
  · obtain ⟨i, hmoves, hi⟩ := hmover
    by_cases hif : i = f
    · rw [hif] at hmoves
      exact hflight.step_of_first hstep hf hmoves (hensures f hf) hw hquiet.readable
    · exact hflight.step_of_next hstep hf hmoves hif hi (hensures i hi) hsound hquiet.toQuiet
  · have hforeign : ∀ i, move.caller? = some i → (S.callers i).role ≠ role :=
      fun i hmoves hi => hmover ⟨i, hmoves, hi⟩
    exact hflight.step_of_others hstep hf hforeign (hquiet.others hforeign)

theorem Quiet.linkFree (hquiet : m.Quiet role f S move S') (hstep : m.Step S move S')
    (hw : S.world.disk.tree.LinkFree) : S'.world.disk.tree.LinkFree := by
  cases hmoves : move.caller? with
  | none => exact (hquiet.others fun i hi => nomatch hmoves.symm.trans hi).linkFree hw
  | some i => exact (hstep.own hmoves).linkFree hw

theorem Reaches.flight (h : m.Reaches (m.Lasting role f) S₀ S) (hfresh : S₀.Fresh)
    (hw : S₀.world.disk.tree.LinkFree) (hf : (S₀.callers f).role = role)
    (hensures : ∀ i, (S₀.callers i).role = role → (S₀.callers i).finishes = false) :
    m.Flight role f S ∧ S.world.disk.tree.LinkFree := by
  induction h with
  | refl =>
      refine ⟨.leading ?_ fun i _ _ => ⟨.inl (hfresh.phase i), hfresh.past i⟩, hw⟩
      rw [hfresh.phase, hfresh.past]
      exact .called
  | @step S S' move h hstep hquiet ih =>
      obtain ⟨hflight, hlinks⟩ := ih
      have hsound := hstep.sound (h.sound hfresh.sound)
      have hf' := (h.caller_eq f).1.trans hf
      refine ⟨hflight.step hstep hquiet hsound hlinks hf' fun i hi => ?_, hquiet.toQuiet.linkFree hstep hlinks⟩
      rw [(h.caller_eq i).2]
      exact hensures i ((h.caller_eq i).1.symm.trans hi)

/-! ### Calls that are run one after the other -/

theorem free_quietOn {b : PageBehaviour σ} {i : ι} (hi : (S₀.callers i).role = role) :
    m.Free (m.QuietOn b role f) S₀ b i := by
  have hown : ∀ {S : Scene ι σ} {P : Prop}, m.Reaches (m.QuietOn b role f) S₀ S →
      (∀ j, some i = some j → (S.callers j).role ≠ role) → P :=
    fun hS h => absurd ((hS.caller_eq i).1.trans hi) (h i rfl)
  constructor
  · intro S S' r x hS hx
    refine ⟨⟨hown hS, fun _ h => (nomatch h), fun _ h => (nomatch h)⟩, fun j r' y hmove => ?_⟩
    cases hmove
    exact hx y rfl
  · intro S S' hS
    exact ⟨⟨hown hS, fun _ h => (nomatch h), fun _ h => (nomatch h)⟩, fun _ _ _ h => (nomatch h)⟩
  · intro S S' hdisk
    exact ⟨⟨fun _ => .of_disk hdisk, fun _ h => (nomatch h), fun _ h => (nomatch h)⟩, fun _ _ _ h => (nomatch h)⟩

omit [DecidableEq ι] in
/-- On a page that only gives out sessions that can be read again, what is saved lasts. -/
theorem QuietOn.lasting {b : PageBehaviour σ} (h : m.QuietOn b role f S move S')
    (hread : ∀ page now session, (b.respond .storageState page now).outcome = .ok session → session.Readable) :
    m.Lasting role f S move S' := by
  refine ⟨h.toQuiet, fun r x hmove => ?_⟩
  rw [h.answer f r x hmove]
  cases r with
  | page c =>
      cases c with
      | storageState => exact hread S.world.page S.world.now
      | _ => trivial
  | _ => trivial

end

def bothCalls (role : String) (w : World σ) : Scene Bool σ where
  world := w
  callers _ := { role }

theorem fresh_bothCalls (role : String) (w : World σ) : (bothCalls role w).Fresh :=
  ⟨fun _ => rfl, fun _ => rfl, fun _ => rfl, fun _ => rfl⟩

/-- The call that follows on the same page at once. -/
def Call.again (c : Call σ) (m : Manager) (role : String) : Call σ where
  page := c.page
  start := c.behind m role

theorem Call.result_again (c : Call σ) :
    (c.again m role).result m role = ((m.ensure role).run c.page (c.behind m role)).1 := by
  unfold Call.result Call.again
  dsimp only

theorem Call.visits_again (c : Call σ) : m.visits role (c.again m role).page (c.again m role).start =
    m.visits role c.page (c.behind m role) := by
  unfold Call.again
  dsimp only

section

variable {c : Call σ} {S : Scene Bool σ} (hS : m.Reaches (m.QuietOn c.page role true) (bothCalls role c.start) S)

include hS

theorem quiet_ask (i : Bool) (S' : Scene Bool σ) : m.QuietOn c.page role true S (.ask i) S' := by
  refine ⟨⟨fun h => ?_, fun _ h => (nomatch h), fun _ h => (nomatch h)⟩, fun _ _ _ h => (nomatch h)⟩
  exact absurd (hS.caller_eq i).1 (h i rfl)

theorem quiet_enter_first (S' : Scene Bool σ) : m.QuietOn c.page role true S (.enter true) S' := by
  refine ⟨⟨fun h => ?_, fun i h hi => ?_, fun i h hi => ?_⟩, fun _ _ _ h => (nomatch h)⟩
  · exact absurd (hS.caller_eq true).1 (h true rfl)
  · cases h
    exact absurd rfl hi
  · cases h
    exact absurd rfl hi

theorem quiet_enter_second (hbegun : (S.callers true).past ≠ [])
    (hyoung : ∀ modified, S.world.disk.modified (m.store.path role) = .ok modified →
      S.world.wall ≤ m.store.lastValid modified) (S' : Scene Bool σ) :
    m.QuietOn c.page role true S (.enter false) S' := by
  refine ⟨⟨fun h => ?_, fun _ _ _ _ => hbegun, fun _ _ _ _ => hyoung⟩, fun _ _ _ h => (nomatch h)⟩
  exact absurd (hS.caller_eq false).1 (h false rfl)

end

theorem Call.Saves.succeeded {c : Call σ} {caller : Caller} (h : c.Saves m role)
    (hphase : caller.phase = .ended (.ensuring (.ended (c.result m role))))
    (hpast : caller.past = .ensuring (.ended (c.result m role)) ::
      ((m.visits role c.page c.start).map fun u => Part.ensuring u.stage).reverse) : caller.Succeeded := by
  obtain ⟨⟨v, hlast⟩, path, hpath⟩ := h
  refine ⟨⟨path, ?_⟩, ?_⟩
  · rw [hphase, hpath]
  · rw [hpast]
    refine List.mem_cons_of_mem _ (List.mem_reverse.mpr ?_)
    exact List.mem_map.mpr ⟨_, List.mem_of_getLast? hlast, rfl⟩

/-- Two calls can be run to their ends, each of them as if it were alone, if what the first one leaves has not
expired. -/
theorem exists_bothCalls {c : Call σ}
    (hyoung : ∀ modified, (c.behind m role).disk.modified (m.store.path role) = .ok modified →
      (c.behind m role).wall ≤ m.store.lastValid modified) :
    ∃ S, m.Reaches (m.QuietOn c.page role true) (bothCalls role c.start) S ∧
      (c.Saves m role → (S.callers true).Succeeded) ∧
      (S.callers false).phase = .ended (.ensuring (.ended ((c.again m role).result m role))) ∧
      ((c.again m role).Saves m role → (S.callers false).Succeeded) := by
  have hquiet : ∀ i, m.Free (m.QuietOn c.page role true) (bothCalls role c.start) c.page i :=
    fun i => free_quietOn rfl
  have hstart : m.Reaches (m.QuietOn c.page role true) (bothCalls role c.start) (bothCalls role c.start) := .refl
  obtain ⟨S₁, l₁, hS₁, hworld₁, hself₁, hothers₁, hholder₁⟩ :=
    hstart.asks (i := true) rfl (quiet_ask hstart true)
  have hcalled : S₁.callers false = { role } := hothers₁ false Bool.false_ne_true
  obtain ⟨S₂, l₂, hS₂, hworld₂, hself₂, hothers₂, hholder₂⟩ :=
    hS₁.asks (i := false) (by rw [hcalled]) (quiet_ask hS₁ false)
  have hfirst : S₂.callers true = { role, phase := .waiting l₁ } := by
    rw [hothers₂ true Bool.true_eq_false_eq_False, hself₁]
    rfl
  have hsecond : S₂.callers false = { role, phase := .waiting l₂ } := by rw [hself₂, hcalled]
  have hnobody : ∀ l, S₂.holder l = none := by
    intro l
    rw [hholder₂, hholder₁]
    rfl
  have hworld : S₂.world = c.start := hworld₂.trans hworld₁
  obtain ⟨S₃, r, hS₃, hrun, hended, hpast, hothers₃, hholder₃⟩ :=
    hS₂.ensure (hquiet true) hfirst (hnobody l₁) (quiet_enter_first hS₂)
  rw [hworld] at hrun hpast
  have hresult : c.result m role = r := congrArg Prod.fst hrun
  have hbehind : c.behind m role = S₃.world := congrArg Prod.snd hrun
  have hbegun : (S₃.callers true).past ≠ [] := by
    rw [hpast]
    exact List.cons_ne_nil _ _
  rw [hbehind] at hyoung
  obtain ⟨S₄, r', hS₄, hrun', hended', hpast', hothers₄, -⟩ :=
    hS₃.ensure (hquiet false) ((hothers₃ false Bool.false_ne_true).trans hsecond) (by rw [hholder₃, hnobody])
      (quiet_enter_second hS₃ hbegun hyoung)
  rw [← hbehind] at hrun' hpast'
  have hresult' : (c.again m role).result m role = r' := by
    rw [Call.result_again, hrun']
  rw [← hresult] at hended hpast
  rw [← hresult'] at hended'
  rw [← hresult', ← Call.visits_again] at hpast'
  refine ⟨S₄, hS₄, fun hsaves => ?_, hended', fun hsaves => hsaves.succeeded hended' hpast'⟩
  rw [hothers₄ true Bool.true_eq_false_eq_False]
  exact hsaves.succeeded hended hpast

section

variable {ι : Type} [DecidableEq ι] {S₀ : Scene ι σ}

/-- **Single flight.**  Any number of calls start side by side, for any roles.  However they are interleaved, at most
one call of each role is inside; a call that has not ended can move on, unless it waits for one of the same role that
is inside; and no call makes moves without end.

Let all calls of a role ask for its session, and let nobody else write its files.  If the first one of them to get the
lock saves a session, and the session has not expired when the others get it, then the first one has gone through each
stage once: it has saved what the page shows, or has signed on once and saved that.  The others have only looked for
the session, and all that have ended have given the same path. -/
theorem single_flight (hfresh : S₀.Fresh) :
    (∀ S, m.Reaches (fun _ _ _ => True) S₀ S →
      (∀ i j l l', (S.callers i).phase.lock? = some l → (S.callers j).phase.lock? = some l' →
        (S.callers i).role = (S.callers j).role → i = j) ∧
      ∀ i, (∀ q, (S.callers i).phase ≠ .ended q) →
        (∃ move S', move.caller? = some i ∧ m.Step S move S') ∨
          ∃ j l, (S.callers i).phase = .waiting l ∧ (S.callers j).phase.lock? = some l ∧
            (S.callers j).role = (S.callers i).role) ∧
      (∀ (run : Nat → Scene ι σ) (moves : Nat → Move ι), (∀ n, m.Step (run n) (moves n) (run (n + 1))) →
        ∀ i, ∃ N, ∀ n, N ≤ n → (moves n).caller? ≠ some i) ∧
      ∀ role f S, (S₀.callers f).role = role →
        (∀ i, (S₀.callers i).role = role → (S₀.callers i).finishes = false) → S₀.world.disk.tree.LinkFree →
        m.Reaches (m.Lasting role f) S₀ S → (S.callers f).Succeeded →
          m.SignedOn role (S.callers f) ∧
            ∀ i, i ≠ f → (S.callers i).role = role →
              (S.callers i).past <:+ [m.success role, .ensuring .load] ∧
                ∀ q, (S.callers i).phase = .ended q → q = m.success role := by
  refine ⟨fun S hS => ?_, fun run moves hrun i => exists_last_move hrun i, ?_⟩
  · have hsound := hS.sound hfresh.sound
    exact ⟨fun i j l l' => hsound.exclusive, fun i => hsound.exists_step m⟩
  · intro role f S hf hensures hw hS hsucceeded
    obtain ⟨hflight, -⟩ := hS.flight hfresh hw hf hensures
    cases hflight with
    | leading hlead hunbegun =>
        obtain ⟨⟨path, hpath⟩, -⟩ := hsucceeded
        rw [hpath] at hlead
        cases hlead
    | signedOn hsigned hkept hfollow =>
        refine ⟨hsigned, fun i hif hi => ?_⟩
        have hi' := hfollow i hif hi
        refine ⟨hi'.past_suffix, fun q hq => ?_⟩
        rw [hq] at hi'
        exact hi'.eq_success
    | failed hended hfailed => exact absurd hsucceeded hfailed

/-- Of two calls on a page that shows the application, the first one saves its session, and the second one only looks
for it. -/
theorem single_flight_homeCall :
    ∃ S : Scene Bool Unit,
      homeManager.Reaches (homeManager.Lasting "admin" true) (bothCalls "admin" homeCall.start) S ∧
        homeManager.SignedOn "admin" (S.callers true) ∧
          (S.callers false).past <:+ [homeManager.success "admin", .ensuring .load] ∧
            (S.callers false).phase = .ended (homeManager.success "admin") := by
  obtain ⟨S, hS, hsucceeded, hended, -⟩ :=
    exists_bothCalls fun _ => young_of_saves linkFree_homeWorld saves_homeCall
  have hlasting := hS.mono fun _ _ _ h => h.lasting exportsReadable_homeCall
  obtain ⟨-, -, hflight⟩ := single_flight (m := homeManager) (fresh_bothCalls "admin" homeCall.start)
  obtain ⟨hsigned, hothers⟩ :=
    hflight "admin" true S rfl (fun _ _ => rfl) linkFree_homeWorld hlasting (hsucceeded saves_homeCall)
  have hrole : (S.callers false).role = "admin" := (hS.caller_eq false).1
  obtain ⟨hpast, hsame⟩ := hothers false Bool.false_ne_true hrole
  refine ⟨S, hlasting, hsigned, hpast, ?_⟩
  rw [hended, hsame _ hended]

end

/-! ### Sessions that do not last -/

theorem saves_of_load_none {c : Call σ} {path : String} (hload : ((m.store.load role).run c.page c.start).1 = none)
    (hresult : c.result m role = .ok path) : c.Saves m role :=
  (looksFurther_of_load hload).2 path hresult

theorem saves_again {c : Call σ} {path : String}
    (hload : ((m.store.load role).run c.page (c.behind m role)).1 = none)
    (hpath : ((m.rest role .resolve).run c.page (c.behind m role)).1.toOption = some path) :
    (c.again m role).Saves m role := by
  have hload' : ((m.store.load role).run (c.again m role).page (c.again m role).start).1 = none := by
    unfold Call.again
    dsimp only
    exact hload
  have hresult : (c.again m role).result m role = .ok path := by
    rw [Call.result_again, run_ensure_of_load_none hload, ok_of_toOption hpath]
  exact saves_of_load_none hload' hresult

/-- The name that a session is first written to is a link to the file of the session. -/
def linkedHome : World Unit :=
  { homeWorld with
    disk.tree := [([".auth-states", "admin.json.tmp"], .link "admin.json"), ([".auth-states"], .directory 0)] }

/-- A call of the page that shows the application, among those files. -/
def linkedCall : Call Unit := ⟨homePage, linkedHome⟩

/-- Both calls save: the file is moved onto itself, and its path leads nowhere then. -/
theorem saves_linkedCall : linkedCall.Saves homeManager "admin" ∧
    (linkedCall.again homeManager "admin").Saves homeManager "admin" := by
  constructor
  · have hload : ((homeManager.store.load "admin").run homePage linkedHome).1 = none := by decide +kernel
    have hresult : (linkedCall.result homeManager "admin").toOption = some ".auth-states/admin.json" := by
      decide +kernel
    exact saves_of_load_none hload (ok_of_toOption hresult)
  · have hload : ((homeManager.store.load "admin").run homePage (linkedCall.behind homeManager "admin")).1 = none := by
      decide +kernel
    have hpath : ((homeManager.rest "admin" .resolve).run homePage
        (linkedCall.behind homeManager "admin")).1.toOption = some ".auth-states/admin.json" := by
      decide +kernel
    exact saves_again hload hpath

def nested : Nat → Json
  | 0 => .array .nil
  | n + 1 => .array (.cons (nested n) .nil)

theorem depth_nested : ∀ n, (nested n).depth = n + 1
  | 0 => rfl
  | n + 1 => by simp [nested, Json.depth, JsonItems.depth, depth_nested n]

theorem regular_nested : ∀ n, (nested n).Regular Number.IsInteger
  | 0 => trivial
  | n + 1 => ⟨regular_nested n, trivial⟩

/-- A session that is too deep to be read again. -/
def deepSession : StoredSession := { cookies := .cons (nested 125) .nil }

theorem not_readable_deepSession : ¬ deepSession.Readable := by
  refine StoredSession.not_readable ⟨regular_nested 125, trivial⟩ trivial ?_
  simp [deepSession, StoredSession.toJson, JsonMembers.ofList, Json.depth, JsonMembers.depth, JsonItems.depth,
    depth_nested, Json.maxDepth]

/-- A page that shows the application, and gives out that session. -/
def deepPage : PageBehaviour Unit where
  url _ _ := "https://app.example/home"
  respond c _ _ :=
    { duration := 0
      outcome := match c with
        | .isVisible _ => .ok true
        | .storageState => .ok deepSession
        | _ => .error (.other "unexpected")
      page := ()
      abandoned := fun _ => () }

def deepCall : Call Unit := ⟨deepPage, homeWorld⟩

theorem saves_deepCall : deepCall.Saves homeManager "admin" := by
  have hload : ((homeManager.store.load "admin").run deepPage homeWorld).1 = none := by decide +kernel
  have hresult : (deepCall.result homeManager "admin").toOption = some ".auth-states/admin.json" := by
    decide +kernel
  exact saves_of_load_none hload (ok_of_toOption hresult)

theorem saves_deepCall_again : (deepCall.again homeManager "admin").Saves homeManager "admin" := by
  obtain ⟨-, session, page, now, hexport, hfile⟩ := stands_of_saves linkFree_homeWorld saves_deepCall
  obtain rfl : deepSession = session := Except.ok.inj hexport
  have hload := load_eq_none (b := deepPage) hfile not_readable_deepSession
  have hpath : ((homeManager.rest "admin" .resolve).run deepPage
      (deepCall.behind homeManager "admin")).1.toOption = some ".auth-states/admin.json" := by
    decide +kernel
  exact saves_again hload hpath

/-- A link can take away what is saved, and a session can be too deep to be read again: then a second call saves it
once more, although the first one has succeeded and nobody else has written the files of the role. -/
theorem both_save :
    (∃ S : Scene Bool Unit,
      homeManager.Reaches (homeManager.Lasting "admin" true) (bothCalls "admin" linkedCall.start) S ∧
        (S.callers true).Succeeded ∧ (S.callers false).Succeeded) ∧
      deepCall.start.disk.tree.LinkFree ∧ ∃ S : Scene Bool Unit,
        homeManager.Reaches (homeManager.Quiet "admin" true) (bothCalls "admin" deepCall.start) S ∧
          (S.callers true).Succeeded ∧ (S.callers false).Succeeded := by
  refine ⟨?_, linkFree_homeWorld, ?_⟩
  · obtain ⟨hfirst, hsecond⟩ := saves_linkedCall
    have hlost : (linkedCall.behind homeManager "admin").disk.modified (homeManager.store.path "admin") =
        .error .tooManyLinks := rfl
    obtain ⟨S, hS, htrue, -, hfalse⟩ := exists_bothCalls fun modified h => nomatch hlost.symm.trans h
    exact ⟨S, hS.mono fun _ _ _ h => h.lasting exportsReadable_homeCall, htrue hfirst, hfalse hsecond⟩
  · obtain ⟨S, hS, htrue, -, hfalse⟩ :=
      exists_bothCalls fun _ => young_of_saves linkFree_homeWorld saves_deepCall
    exact ⟨S, hS.mono fun _ _ _ h => h.toQuiet, htrue saves_deepCall, hfalse saves_deepCall_again⟩

end Manager

end SignOn
