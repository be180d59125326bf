import Mathlib.Logic.Function.Basic
import SignOn.Proofs.Sessions

/-! # Calls side by side

Any number of calls, for any roles, of which each asks for a session or ends one.  They share one world, and make their
requests in any order.

* `Manager.part` is a part of a call; one part after the other is the call (`partsFrom_eq`).
* A `Scene` is the world, the locks, and where each call stands.  `Manager.Step` is what one of them does next: it asks
  for the lock of its role, takes the lock when nobody holds it, makes one request, or goes on to its next part.  Files
  and the clock answer as they do, and of all else any reply may come.
* In a `Scene.Sound` scene each role has a lock of its own, and who holds a lock is inside.  Every scene that is reached
  is sound (`Reaches.sound`); so one call of a role is inside at most (`Sound.exclusive`), and a call can move on
  unless it waits for one of the same role (`Sound.exists_step`).
* A call that has the lock can be run to the end of its part as if it were alone (`Reaches.alone`). -/

namespace SignOn

/-- What may come back for a request, and the world behind it.  Files and the wall clock answer as they do; of all else
any reply may come. -/
def World.Answers {σ : Type} (w : World σ) : (r : Request) → r.Reply → World σ → Prop
  | .file op, x, v => fileStep op w = (x, v)
  | .wallClock, x, v => x = w.wall ∧ v = w
  | _, _, v => v = w

namespace Plan

variable {α σ : Type}

/-- What is left of a plan behind a look at the clock, if that is what it begins with. -/
def noticing (now : Int) : Plan α → Plan α
  | .ask .wallClock next => next now
  | p => p

/-- One request of a plan, what comes back, and what is left of the plan then.  What takes no time is never given up,
and operations on files take none. -/
inductive Turns (w : World σ) : Plan α → (r : Request) → Option r.Reply → World σ → Plan α → Prop
  | answered {r : Request} {next : r.Reply → Plan α} {x : r.Reply} {v : World σ} (hx : w.Answers r x v) :
      Turns w (.ask r next) r (some x) v (next x)
  | inTime {limit : Nat} {r : Request} {next : Option r.Reply → Plan α} {x : r.Reply} {v : World σ}
      (hx : w.Answers r x v) : Turns w (.askBy limit r next) r (some x) v (next (some x))
  | givenUp {limit : Nat} {r : Request} {next : Option r.Reply → Plan α} (hr : ∀ op, r ≠ .file op) :
      Turns w (.askBy limit r next) r none w (next none)

end Plan

namespace Manager

/-! ### Parts of a call -/

/-- A part of a call: a stage on the way to a session, signing off through the provider, or taking the session away.
-/
inductive Part where
  | ensuring (s : Stage)
  | signOff
  | drop
  | finished (r : Except SessionError Unit)

/-- Nothing comes behind the part. -/
def Part.isLast : Part → Bool
  | .ensuring (.ended _) | .finished _ => true
  | _ => false

section

variable (m : Manager) (role : String)

/-- One part of a call; the part behind it is what it gives. -/
def part : Part → Plan Part
  | .ensuring s => do return .ensuring (← m.take role s)
  | .signOff =>
    match m.provider role with
    | .error i => return .finished (.error (.config i))
    | .ok p => do
      match ← p.logout.run with
      | .error e => return .finished (.error (.auth e))
      | .ok _ => return .drop
  | .drop => do
    match ← m.store.clearRole role with
    | .error e => return .finished (.error (.storage e))
    | .ok _ => return .finished (.ok ())
  | .finished r => return .finished r

def partsFrom : Part → Plan Part
  | .ensuring s => do return .ensuring (.ended (← m.rest role s))
  | .signOff => do return .finished (← m.finishAlone role)
  | .drop => m.part role .drop
  | .finished r => return .finished r

/-- What is left of a call is one part and what is left behind it. -/
theorem partsFrom_eq (p : Part) : m.partsFrom role p = (m.part role p).bind (m.partsFrom role) := by
  have hdrop : m.part role .drop = (m.part role .drop).bind (m.partsFrom role) := by
    refine Eq.trans (congrArg (Plan.bind (m.store.clearRole role)) ?_) (Plan.bind_assoc _ _ _).symm
    funext r
    cases r <;> rfl
  cases p with
  | ensuring s =>
      rw [partsFrom, rest_eq, Plan.bind_eq, Plan.bind_assoc, part, Plan.bind_eq, Plan.bind_assoc]
      rfl
  | signOff =>
      rw [partsFrom, part, finishAlone]
      cases m.provider role with
      | error i => rfl
      | ok p =>
          refine Eq.trans (Plan.bind_assoc p.logout.run _ _) ?_
          refine Eq.trans (congrArg (Plan.bind p.logout.run) ?_) (Plan.bind_assoc p.logout.run _ _).symm
          funext r
          cases r with
          | error e => rfl
          | ok u =>
              refine Eq.trans (Plan.bind_assoc (m.store.clearRole role) _ _) ?_
              refine congrArg (Plan.bind (m.store.clearRole role)) ?_
              funext r
              cases r <;> rfl
  | drop => exact hdrop
  | finished r => rfl

/-! ### The order of parts -/

/-- What a stage may lead to, whatever comes back. -/
inductive Stage.Before : Stage → Stage → Prop
  | reused (path : String) : Before .load (.ended (.ok path))
  | missing : Before .load .resolve
  | unresolved (e : SessionError) : Before .resolve (.ended (.error e))
  | resolved (p : Provider) (c : Credentials) : Before .resolve (.check p c)
  | shown (p : Provider) (c : Credentials) : Before (.check p c) .save
  | hidden (p : Provider) (c : Credentials) : Before (.check p c) (.login p c)
  | refused (p : Provider) (c : Credentials) (e : SessionError) : Before (.login p c) (.ended (.error e))
  | loggedIn (p : Provider) (c : Credentials) : Before (.login p c) .save
  | saved (r : Except SessionError String) : Before .save (.ended r)

theorem Stage.Before.left_lt {s s' : Stage} (h : s.Before s') : s'.left < s.left := by
  cases h <;> simp only [Stage.left] <;> omega

theorem obeys_take {s : Stage} (hs : s.left ≠ 0) : (m.take role s).Obeys (fun _ => True) s.Before := by
  cases s with
  | load =>
      refine (m.store.load role).obeys_true.bind fun found _ => ?_
      cases found with
      | some path => exact ⟨trivial, fun _ => .reused path⟩
      | none => exact .missing
  | resolve =>
      refine (m.resolve role).obeys_true.bind fun found _ => ?_
      cases found with
      | error e => exact .unresolved _
      | ok c =>
          dsimp only
          cases m.provider role with
          | error i => exact .unresolved _
          | ok p => exact .resolved p c
  | check p c =>
      refine p.isSessionValid.obeys_true.bind fun valid _ => ?_
      cases valid with
      | true => exact ⟨trivial, fun _ => .shown p c⟩
      | false => exact .hidden p c
  | login p c =>
      refine (p.login c).run.obeys_true.bind fun result _ => ?_
      cases result with
      | error e => exact .refused p c _
      | ok r => exact ⟨trivial, fun _ => .loggedIn p c⟩
  | save => exact (m.save role).obeys_true.bind fun r _ => .saved r
  | ended r => exact absurd rfl hs

/-- How many parts there are left at most. -/
def Part.left : Part → Nat
  | .ensuring s => s.left
  | .signOff => 2
  | .drop => 1
  | .finished _ => 0

theorem obeys_part {q : Part} (hq : q.isLast = false) :
    (m.part role q).Obeys (fun _ => True) fun q' => q'.left < q.left := by
  cases q with
  | ensuring s =>
      have hs : s.left ≠ 0 := by
        cases s <;> simp [Part.isLast, Stage.left] at hq ⊢
      exact (m.obeys_take role hs).bind fun s' hs' => hs'.left_lt
  | signOff =>
      unfold part
      cases m.provider role with
      | error i => exact Nat.zero_lt_two
      | ok p =>
          refine p.logout.run.obeys_true.bind fun r _ => ?_
          cases r with
          | error e => exact Nat.zero_lt_two
          | ok u => exact Nat.one_lt_two
  | drop =>
      refine (m.store.clearRole role).obeys_true.bind fun r _ => ?_
      cases r <;> exact Nat.zero_lt_one
  | finished r => cases hq

end

/-! ### Scenes -/

/-- Where a call stands.  Inside, some of its present part is left. -/
inductive Phase where
  | called
  | waiting (lock : Nat)
  | inside (lock : Nat) (left : Plan Part)
  | ended (p : Part)

def Phase.lock? : Phase → Option Nat
  | .inside l _ => some l
  | _ => none

/-- A call among others, which ends the session of the role or asks for one, with the parts that it has begun, the
last one first. -/
structure Caller where
  role : String
  finishes : Bool := false
  phase : Phase := .called
  past : List Part := []

/-- The part that a call begins with. -/
def Caller.first (c : Caller) : Part :=
  if c.finishes then .signOff else .ensuring .load

/-- Calls that share a world, and the locks of their roles: the ones that have been asked for, the next one to be
made, and who holds each. -/
structure Scene (ι σ : Type) where
  world : World σ
  callers : ι → Caller
  locks : String → Option Nat := fun _ => none
  fresh : Nat := 0
  holder : Nat → Option ι := fun _ => none

/-- What can happen next: a call asks for its lock, takes it, makes a request, which is given up if there is no reply,
or goes on to its next part, or something else changes the world. -/
inductive Move (ι : Type) where
  | ask (i : ι)
  | enter (i : ι)
  | go (i : ι) (r : Request) (reply : Option r.Reply)
  | next (i : ι)
  | pass

def Move.caller? {ι : Type} : Move ι → Option ι
  | .ask i | .enter i | .go i .. | .next i => some i
  | .pass => none

section

variable {ι σ : Type} [DecidableEq ι]

namespace Scene

/-- A call comes to another phase. -/
def set (S : Scene ι σ) (i : ι) (p : Phase) : Scene ι σ :=
  { S with callers := Function.update S.callers i { S.callers i with phase := p } }

theorem phase_set (S : Scene ι σ) (i : ι) (p : Phase) : ((S.set i p).callers i).phase = p := by
  simp only [set, Function.update_self]

def begin (S : Scene ι σ) (i : ι) (q : Part) (p : Phase) : Scene ι σ :=
  { S with callers := Function.update S.callers i { S.callers i with phase := p, past := q :: (S.callers i).past } }

/-- A call asks for the lock of its role, which is made if there is none. -/
def asked (S : Scene ι σ) (i : ι) : Scene ι σ :=
  match S.locks (S.callers i).role with
  | some l => S.set i (.waiting l)
  | none =>
    { S.set i (.waiting S.fresh) with
      locks := Function.update S.locks (S.callers i).role (some S.fresh)
      fresh := S.fresh + 1 }

end Scene

/-- One move.  A call that gets the lock looks at the clock at once if it does so first. -/
inductive Step (m : Manager) : Scene ι σ → Move ι → Scene ι σ → Prop
  | ask {S : Scene ι σ} {i : ι} (h : (S.callers i).phase = .called) : Step m S (.ask i) (S.asked i)
  | enter {S : Scene ι σ} {i : ι} {l : Nat} (h : (S.callers i).phase = .waiting l) (hfree : S.holder l = none) :
      Step m S (.enter i)
        { S.begin i (S.callers i).first
            (.inside l ((m.part (S.callers i).role (S.callers i).first).noticing S.world.wall)) with
          holder := Function.update S.holder l (some i) }
  | go {S : Scene ι σ} {i : ι} {l : Nat} {p p' : Plan Part} {r : Request} {x : Option r.Reply} {v : World σ}
      (h : (S.callers i).phase = .inside l p) (hturn : p.Turns S.world r x v p') :
      Step m S (.go i r x) { S.set i (.inside l p') with world := v }
  | next {S : Scene ι σ} {i : ι} {l : Nat} {q : Part} (h : (S.callers i).phase = .inside l (.done q))
      (hq : q.isLast = false) : Step m S (.next i) (S.begin i q (.inside l (m.part (S.callers i).role q)))
  | leave {S : Scene ι σ} {i : ι} {l : Nat} {q : Part} (h : (S.callers i).phase = .inside l (.done q))
      (hq : q.isLast = true) :
      Step m S (.next i) { S.begin i q (.ended q) with holder := Function.update S.holder l none }
  | pass {S : Scene ι σ} (v : World σ) : Step m S .pass { S with world := v }

/-- A scene is reached by moves of a kind. -/
inductive Reaches (m : Manager) (A : Scene ι σ → Move ι → Scene ι σ → Prop) (S₀ : Scene ι σ) : Scene ι σ → Prop
  | refl : Reaches m A S₀ S₀
  | step {S S' : Scene ι σ} {move : Move ι} (h : Reaches m A S₀ S) (hstep : m.Step S move S') (hA : A S move S') :
      Reaches m A S₀ S'

/-- No call has done anything yet. -/
structure Scene.Fresh (S : Scene ι σ) : Prop where
  phase : ∀ i, (S.callers i).phase = .called
  past : ∀ i, (S.callers i).past = []
  locks : ∀ role, S.locks role = none
  holder : ∀ l, S.holder l = none

variable {m : Manager} {A : Scene ι σ → Move ι → Scene ι σ → Prop} {S S' S₀ : Scene ι σ} {move : Move ι}

theorem Step.caller_eq (h : m.Step S move S') (i : ι) :
    (S'.callers i).role = (S.callers i).role ∧ (S'.callers i).finishes = (S.callers i).finishes := by
  have hupdate : ∀ (j : ι) (c : Caller), c.role = (S.callers j).role → c.finishes = (S.callers j).finishes →
      (Function.update S.callers j c i).role = (S.callers i).role ∧
        (Function.update S.callers j c i).finishes = (S.callers i).finishes := by
    intro j c hrole hfinishes
    by_cases hij : i = j
    · rw [hij, Function.update_self]
      exact ⟨hrole, hfinishes⟩
    · rw [Function.update_of_ne hij]
      exact ⟨rfl, rfl⟩
  cases h with
  | ask h =>
      unfold Scene.asked
      split <;> exact hupdate _ _ rfl rfl
  | pass v => exact ⟨rfl, rfl⟩
  | _ => exact hupdate _ _ rfl rfl

theorem Reaches.mono {B : Scene ι σ → Move ι → Scene ι σ → Prop} (h : m.Reaches A S₀ S)
    (hAB : ∀ S move S', A S move S' → B S move S') : m.Reaches B S₀ S := by
  induction h with
  | refl => exact .refl
  | step h hstep hA ih => exact .step ih hstep (hAB _ _ _ hA)

theorem Reaches.caller_eq (h : m.Reaches A S₀ S) (i : ι) :
    (S.callers i).role = (S₀.callers i).role ∧ (S.callers i).finishes = (S₀.callers i).finishes := by
  induction h with
  | refl => exact ⟨rfl, rfl⟩
  | step h hstep hA ih =>
      obtain ⟨hrole, hfinishes⟩ := hstep.caller_eq i
      exact ⟨hrole.trans ih.1, hfinishes.trans ih.2⟩

theorem Step.caller_of_ne (h : m.Step S move S') {i : ι} (hi : move.caller? ≠ some i) : S'.callers i = S.callers i := by
  have hupdate : ∀ (j : ι) (c : Caller), some j ≠ some i → Function.update S.callers j c i = S.callers i := by
    intro j c hj
    exact Function.update_of_ne (fun hij : i = j => hj (congrArg some hij.symm)) c S.callers
  cases h with
  | ask h =>
      unfold Scene.asked
      split <;> exact hupdate _ _ hi
  | pass v => rfl
  | _ => exact hupdate _ _ hi

/-- What a move does to the call that moves, and to the world. -/
inductive Own (m : Manager) (i : ι) (c : Caller) (w : World σ) : Move ι → Caller → World σ → Prop
  | ask (l : Nat) (h : c.phase = .called) : Own m i c w (.ask i) { c with phase := .waiting l } w
  | enter {l : Nat} (h : c.phase = .waiting l) :
      Own m i c w (.enter i)
        { c with phase := .inside l ((m.part c.role c.first).noticing w.wall), past := c.first :: c.past } w
  | go {l : Nat} {p p' : Plan Part} {r : Request} {x : Option r.Reply} {v : World σ} (h : c.phase = .inside l p)
      (hturn : p.Turns w r x v p') : Own m i c w (.go i r x) { c with phase := .inside l p' } v
  | next {l : Nat} {q : Part} (h : c.phase = .inside l (.done q)) (hq : q.isLast = false) :
      Own m i c w (.next i) { c with phase := .inside l (m.part c.role q), past := q :: c.past } w
  | leave {l : Nat} {q : Part} (h : c.phase = .inside l (.done q)) (hq : q.isLast = true) :
      Own m i c w (.next i) { c with phase := .ended q, past := q :: c.past } w

theorem Step.own (h : m.Step S move S') {i : ι} (hi : move.caller? = some i) :
    m.Own i (S.callers i) S.world move (S'.callers i) S'.world := by
  cases h with
  | @ask i' h =>
      obtain rfl : i' = i := Option.some.inj hi
      unfold Scene.asked
      split
      · next l _ =>
          simp only [Scene.set, Function.update_self]
          exact .ask l h
      · simp only [Scene.set, Function.update_self]
        exact .ask S.fresh h
  | @enter i' l h hfree =>
      obtain rfl : i' = i := Option.some.inj hi
      simp only [Scene.begin, Function.update_self]
      exact .enter h
  | @go i' l p p' r x v h hturn =>
      obtain rfl : i' = i := Option.some.inj hi
      simp only [Scene.set, Function.update_self]
      exact .go h hturn
  | @next i' l q h hq =>
      obtain rfl : i' = i := Option.some.inj hi
      simp only [Scene.begin, Function.update_self]
      exact .next h hq
  | @leave i' l q h hq =>
      obtain rfl : i' = i := Option.some.inj hi
      simp only [Scene.begin, Function.update_self]
      exact .leave h hq
  | pass v => cases hi

/-! ### Locks -/

/-- Each role has a lock of its own, calls wait for the lock of their role, and those inside hold it. -/
structure Scene.Sound (S : Scene ι σ) : Prop where
  old : ∀ role l, S.locks role = some l → l < S.fresh
  apart : ∀ role role' l, S.locks role = some l → S.locks role' = some l → role = role'
  waits : ∀ i l, (S.callers i).phase = .waiting l → S.locks (S.callers i).role = some l
  inside : ∀ i l, (S.callers i).phase.lock? = some l → S.locks (S.callers i).role = some l
  holder : ∀ l i, S.holder l = some i ↔ (S.callers i).phase.lock? = some l

omit [DecidableEq ι] in
theorem Scene.Fresh.sound (h : S.Fresh) : S.Sound := by
  constructor
  · intro role l hl
    rw [h.locks] at hl
    cases hl
  · intro role role' l hl
    rw [h.locks] at hl
    cases hl
  · intro i l hi
    rw [h.phase] at hi
    cases hi
  · intro i l hi
    rw [h.phase] at hi
    cases hi
  · intro l i
    rw [h.phase, h.holder]
    simp [Phase.lock?]

theorem Step.sound (h : m.Step S move S') (hS : S.Sound) : S'.Sound := by
  obtain ⟨hold, hapart, hwaits, hinside, hholder⟩ := hS
  cases h with
  | ask h =>
      unfold Scene.asked
      split
      · constructor <;> simp only [Scene.set, Function.update_apply] <;> grind [Phase.lock?]
      · constructor <;> simp only [Scene.set, Function.update_apply] <;> grind [Phase.lock?]
  | enter h hfree => constructor <;> simp only [Scene.begin, Function.update_apply] <;> grind [Phase.lock?]
  | go h hturn => constructor <;> simp only [Scene.set, Function.update_apply] <;> grind [Phase.lock?]
  | next h hq => constructor <;> simp only [Scene.begin, Function.update_apply] <;> grind [Phase.lock?]
  | leave h hq =>
      have hself := (hholder _ _).mpr (congrArg Phase.lock? h)
      constructor <;> simp only [Scene.begin, Function.update_apply] <;> grind [Phase.lock?]
  | pass v => exact ⟨hold, hapart, hwaits, hinside, hholder⟩

theorem Reaches.sound (h : m.Reaches A S₀ S) (hS : S₀.Sound) : S.Sound := by
  induction h with
  | refl => exact hS
  | step h hstep hA ih => exact hstep.sound ih

omit [DecidableEq ι] in
/-- Two calls inside are for different roles. -/
theorem Scene.Sound.exclusive (h : S.Sound) {i j : ι} {l l' : Nat} (hi : (S.callers i).phase.lock? = some l)
    (hj : (S.callers j).phase.lock? = some l') (hrole : (S.callers i).role = (S.callers j).role) : i = j := by
  have hlocks := h.inside i l hi
  rw [hrole, h.inside j l' hj] at hlocks
  obtain rfl : l' = l := Option.some.inj hlocks
  have hholder := (h.holder l' i).mpr hi
  rw [(h.holder l' j).mpr hj] at hholder
  exact (Option.some.inj hholder).symm

/-! ### Moving on -/

theorem World.exists_answer (w : World σ) (r : Request) : ∃ x v, w.Answers r x v := by
  cases r with
  | file op => exact ⟨(World.fileStep op w).1, (World.fileStep op w).2, rfl⟩
  | wallClock => exact ⟨w.wall, w, rfl, rfl⟩
  | page c => exact ⟨.error (.other ""), w, rfl⟩
  | race _ _ _ => exact ⟨.error (.other ""), w, rfl⟩
  | url => exact ⟨"", w, rfl⟩
  | clock => exact ⟨(0 : Nat), w, rfl⟩
  | env _ => exact ⟨none, w, rfl⟩
  | post _ => exact ⟨.unreachable, w, rfl⟩
  | count _ => exact ⟨(0 : Nat), w, rfl⟩
  | _ => exact ⟨(), w, rfl⟩

/-- A call that has not ended can move, or it waits for one of the same role. -/
theorem Scene.Sound.exists_step (h : S.Sound) (m : Manager) {i : ι} (hi : ∀ q, (S.callers i).phase ≠ .ended q) :
    (∃ move S', move.caller? = some i ∧ m.Step S move S') ∨
      ∃ j l, (S.callers i).phase = .waiting l ∧ (S.callers j).phase.lock? = some l ∧
        (S.callers j).role = (S.callers i).role := by
  cases hphase : (S.callers i).phase with
  | called => exact .inl ⟨_, _, rfl, .ask hphase⟩
  | waiting l =>
      cases hholder : S.holder l with
      | none => exact .inl ⟨_, _, rfl, .enter hphase hholder⟩
      | some j =>
          have hj := (h.holder l j).mp hholder
          exact .inr ⟨j, l, rfl, hj, h.apart _ _ l (h.inside j l hj) (h.waits i l hphase)⟩
  | inside l p =>
      left
      cases p with
      | done q =>
          cases hq : q.isLast with
          | true => exact ⟨_, _, rfl, .leave hphase hq⟩
          | false => exact ⟨_, _, rfl, .next hphase hq⟩
      | ask r next =>
          obtain ⟨x, v, hx⟩ := World.exists_answer S.world r
          exact ⟨_, _, rfl, .go hphase (.answered hx)⟩
      | askBy limit r next =>
          obtain ⟨x, v, hx⟩ := World.exists_answer S.world r
          exact ⟨_, _, rfl, .go hphase (.inTime hx)⟩
  | ended q => exact absurd hphase (hi q)

/-- One move of a call, and the call behind it. -/
def Moves (ι σ : Type) [DecidableEq ι] (m : Manager) (c' c : Caller) : Prop :=
  ∃ (i : ι) (w : World σ) (move : Move ι) (w' : World σ), m.Own i c w move c' w'

section

variable {c : Caller} {l : Nat}

theorem acc_of_ended {q : Part} (h : c.phase = .ended q) : Acc (Moves ι σ m) c := by
  constructor
  rintro c' ⟨i, w, move, w', hown⟩
  cases hown <;> simp_all

theorem acc_of_obeys {p : Plan Part} {Q : Part → Prop} (hp : p.Obeys (fun _ => True) Q)
    (hQ : ∀ (q : Part) (c : Caller), Q q → c.phase = .inside l (.done q) → Acc (Moves ι σ m) c)
    (h : c.phase = .inside l p) : Acc (Moves ι σ m) c := by
  induction p generalizing c with
  | done q => exact hQ q c hp h
  | ask r next ih =>
      constructor
      rintro c' ⟨i, w, move, w', hown⟩
      cases hown with
      | go h' hturn =>
          obtain ⟨rfl, rfl⟩ := Phase.inside.inj (h.symm.trans h')
          cases hturn with
          | answered hx => exact ih _ (hp.2 _) rfl
      | ask _ h' | enter h' | next h' | leave h' => simp [h] at h'
  | askBy limit r next ih =>
      constructor
      rintro c' ⟨i, w, move, w', hown⟩
      cases hown with
      | go h' hturn =>
          obtain ⟨rfl, rfl⟩ := Phase.inside.inj (h.symm.trans h')
          cases hturn with
          | inTime hx => exact ih _ (hp.2 _) rfl
          | givenUp hr => exact ih _ (hp.2 _) rfl
      | ask _ h' | enter h' | next h' | leave h' => simp [h] at h'

theorem acc_of_done {q : Part} (h : c.phase = .inside l (.done q)) : Acc (Moves ι σ m) c := by
  induction hn : q.left using Nat.strong_induction_on generalizing q c with
  | _ n ih =>
      constructor
      rintro c' ⟨i, w, move, w', hown⟩
      cases hown with
      | next h' hq =>
          obtain ⟨rfl, hdone⟩ := Phase.inside.inj (h.symm.trans h')
          obtain rfl := Plan.done.inj hdone
          refine acc_of_obeys (m.obeys_part c.role hq) (fun q' d hlt hd => ?_) rfl
          exact ih q'.left (hn ▸ hlt) hd rfl
      | leave h' hq => exact acc_of_ended rfl
      | go h' hturn =>
          obtain ⟨rfl, rfl⟩ := Phase.inside.inj (h.symm.trans h')
          cases hturn
      | ask _ h' | enter h' => simp [h] at h'

theorem acc_of_inside {p : Plan Part} (h : c.phase = .inside l p) : Acc (Moves ι σ m) c :=
  acc_of_obeys p.obeys_true (fun _ _ _ => acc_of_done) h

theorem acc_of_waiting (h : c.phase = .waiting l) : Acc (Moves ι σ m) c := by
  constructor
  rintro c' ⟨i, w, move, w', hown⟩
  cases hown with
  | enter h' => exact acc_of_inside rfl
  | ask _ h' | go h' _ | next h' | leave h' => simp [h] at h'

theorem wellFounded_moves (ι σ : Type) [DecidableEq ι] (m : Manager) : WellFounded (Moves ι σ m) := by
  constructor
  intro c
  cases h : c.phase with
  | called =>
      constructor
      rintro c' ⟨i, w, move, w', hown⟩
      cases hown with
      | ask l h' => exact acc_of_waiting rfl
      | enter h' | go h' _ | next h' | leave h' => simp [h] at h'
  | waiting l => exact acc_of_waiting h
  | inside l p => exact acc_of_inside h
  | ended q => exact acc_of_ended h

end

theorem exists_last_move {run : Nat → Scene ι σ} {moves : Nat → Move ι}
    (hrun : ∀ n, m.Step (run n) (moves n) (run (n + 1))) (i : ι) :
    ∃ N, ∀ n, N ≤ n → (moves n).caller? ≠ some i := by
  have hfrom : ∀ (c : Caller) n, (run n).callers i = c → ∃ N, ∀ k, N ≤ k → (moves k).caller? ≠ some i := by
    intro c
    induction c using (wellFounded_moves ι σ m).induction with
    | _ c ih =>
        intro n hn
        by_cases hmove : ∃ k, (moves (n + k)).caller? = some i
        · obtain ⟨k, hk⟩ := hmove
          induction k generalizing n with
          | zero =>
              have hown := (hrun n).own hk
              rw [hn] at hown
              exact ih _ ⟨i, _, _, _, hown⟩ (n + 1) rfl
          | succ k ihk =>
              by_cases hnow : (moves n).caller? = some i
              · have hown := (hrun n).own hnow
                rw [hn] at hown
                exact ih _ ⟨i, _, _, _, hown⟩ (n + 1) rfl
              · refine ihk (n + 1) (((hrun n).caller_of_ne hnow).trans hn) ?_
                rw [Nat.add_right_comm]
                exact hk
        · refine ⟨n, fun k hk hmoves => hmove ⟨k - n, ?_⟩⟩
          rw [Nat.add_sub_cancel' hk]
          exact hmoves
  exact hfrom _ 0 rfl

/-! ### Alone -/

theorem World.answers_step (b : PageBehaviour σ) (w : World σ) (r : Request) :
    ∃ v, w.Answers r (w.step b r).reply v ∧ (w.step b r).after.disk = v.disk := by
  cases r with
  | file op => exact ⟨_, rfl, rfl⟩
  | wallClock => exact ⟨w, ⟨rfl, rfl⟩, rfl⟩
  | post p => exact ⟨w, rfl, (World.disk_step b (r := .post p) trivial w).1⟩
  | race m selector timeout => exact ⟨w, rfl, (World.disk_step b (r := .race m selector timeout) trivial w).1⟩
  | _ => exact ⟨w, rfl, rfl⟩

theorem run_noticing {α : Type} (b : PageBehaviour σ) (p : Plan α) (w : World σ) :
    (p.noticing w.wall).run b w = p.run b w := by
  unfold Plan.noticing
  split <;> rfl

theorem Reaches.asks {i : ι} (h : m.Reaches A S₀ S) (hphase : (S.callers i).phase = .called)
    (hA : ∀ S', A S (.ask i) S') :
    ∃ S' l, m.Reaches A S₀ S' ∧ S'.world = S.world ∧ S'.callers i = { S.callers i with phase := .waiting l } ∧
      (∀ j, j ≠ i → S'.callers j = S.callers j) ∧ S'.holder = S.holder := by
  have hasked := h.step (.ask hphase) (hA _)
  cases hlocks : S.locks (S.callers i).role with
  | none =>
      refine ⟨_, S.fresh, hasked, ?_⟩
      simp only [Scene.asked, hlocks, Scene.set, Function.update_self]
      exact ⟨trivial, trivial, fun j hj => Function.update_of_ne hj _ _, trivial⟩
  | some l =>
      refine ⟨_, l, hasked, ?_⟩
      simp only [Scene.asked, hlocks, Scene.set, Function.update_self]
      exact ⟨trivial, trivial, fun j hj => Function.update_of_ne hj _ _, trivial⟩

theorem Reaches.enters {i : ι} {l : Nat} (h : m.Reaches A S₀ S) (hphase : (S.callers i).phase = .waiting l)
    (hfree : S.holder l = none) (hA : ∀ S', A S (.enter i) S') :
    ∃ S', m.Reaches A S₀ S' ∧ S'.world = S.world ∧
      S'.callers i = { S.callers i with
        phase := .inside l ((m.part (S.callers i).role (S.callers i).first).noticing S.world.wall)
        past := (S.callers i).first :: (S.callers i).past } ∧
      (∀ j, j ≠ i → S'.callers j = S.callers j) ∧ S'.holder = Function.update S.holder l (some i) := by
  refine ⟨_, h.step (.enter hphase hfree) (hA _), rfl, ?_, fun j hj => ?_, rfl⟩
  · simp only [Scene.begin, Function.update_self]
  · simp only [Scene.begin, Function.update_of_ne hj]

/-- Among moves of a kind, a call may always make those that it makes alone on a page. -/
structure Free (m : Manager) (A : Scene ι σ → Move ι → Scene ι σ → Prop) (S₀ : Scene ι σ) (b : PageBehaviour σ)
    (i : ι) : Prop where
  go : ∀ S S' r x, m.Reaches A S₀ S → (∀ y, x = some y → y = (S.world.step b r).reply) → A S (.go i r x) S'
  next : ∀ S S', m.Reaches A S₀ S → A S (.next i) S'
  pass : ∀ S S', S'.world.disk = S.world.disk → A S .pass S'

section

variable {b : PageBehaviour σ} {i : ι} {l : Nat} {p : Plan Part} (hfree : m.Free A S₀ b i)

include hfree

/-- A call inside can be run to the end of its part as if it were alone. -/
theorem Reaches.alone (h : m.Reaches A S₀ S) (hphase : (S.callers i).phase = .inside l p) :
    m.Reaches A S₀ { S.set i (.inside l (.done (p.run b S.world).1)) with world := (p.run b S.world).2 } := by
  induction p generalizing S with
  | done q =>
      have hset : S.set i (.inside l (.done q)) = S := by
        unfold Scene.set
        rw [← hphase, Function.update_eq_self]
      rw [Plan.run_done, hset]
      exact h
  | ask r next ih =>
      rw [Plan.run_ask]
      -- A step takes two moves: the call is answered at the world as it is, and the world passes on to where the step
      -- leaves it.
      obtain ⟨v, hx, hdisk⟩ := World.answers_step b S.world r
      have hgone := h.step (.go hphase (.answered hx)) (hfree.go _ _ _ _ h fun y hy => (Option.some.inj hy).symm)
      have hpassed := hgone.step (.pass (S.world.step b r).after) (hfree.pass _ _ hdisk)
      have hrest := ih (S.world.step b r).reply hpassed (S.phase_set i _)
      simpa [Scene.set] using hrest
  | askBy limit r next ih =>
      rw [Plan.run]
      dsimp only
      split
      · obtain ⟨v, hx, hdisk⟩ := World.answers_step b S.world r
        have hgone := h.step (.go hphase (.inTime hx)) (hfree.go _ _ _ _ h fun y hy => (Option.some.inj hy).symm)
        have hpassed := hgone.step (.pass (S.world.step b r).after) (hfree.pass _ _ hdisk)
        have hrest := ih (some (S.world.step b r).reply) hpassed (S.phase_set i _)
        simpa [Scene.set] using hrest
      · next hlate =>
          have hfile : ∀ op, r ≠ .file op := by
            rintro op rfl
            exact hlate (by simp [inTime, World.step, World.immediate])
          have hleaves : r.LeavesFiles := by
            cases r with
            | file op => exact absurd rfl (hfile op)
            | _ => trivial
          have hgone := h.step (.go hphase (.givenUp hfile)) (hfree.go _ _ _ none h fun y hy => by cases hy)
          have hpassed := hgone.step (.pass ((S.world.step b r).abandoned (limit - S.world.now)))
            (hfree.pass _ _ ((World.disk_step b hleaves S.world).2 _))
          have hrest := ih none hpassed (S.phase_set i _)
          simpa [Scene.set] using hrest

theorem Reaches.onward {q : Part} {w : World σ} (h : m.Reaches A S₀ S) (hphase : (S.callers i).phase = .inside l p)
    (hrun : p.run b S.world = (q, w)) (hq : q.isLast = false) :
    ∃ S', m.Reaches A S₀ S' ∧ S'.world = w ∧
      S'.callers i = { S.callers i with
        phase := .inside l (m.part (S.callers i).role q), past := q :: (S.callers i).past } ∧
      (∀ j, j ≠ i → S'.callers j = S.callers j) ∧ S'.holder = S.holder := by
  have halone := h.alone hfree hphase
  rw [hrun] at halone
  have hdone := S.phase_set i (.inside l (.done q))
  refine ⟨_, halone.step (.next hdone hq) (hfree.next _ _ halone), rfl, ?_, fun j hj => ?_, rfl⟩
  · simp [Scene.begin, Scene.set]
  · simp [Scene.begin, Scene.set, Function.update_of_ne hj]

theorem Reaches.away {q : Part} {w : World σ} (h : m.Reaches A S₀ S) (hphase : (S.callers i).phase = .inside l p)
    (hrun : p.run b S.world = (q, w)) (hq : q.isLast = true) :
    ∃ S', m.Reaches A S₀ S' ∧ S'.world = w ∧
      S'.callers i = { S.callers i with phase := .ended q, past := q :: (S.callers i).past } ∧
      (∀ j, j ≠ i → S'.callers j = S.callers j) ∧ S'.holder = Function.update S.holder l none := by
  have halone := h.alone hfree hphase
  rw [hrun] at halone
  have hdone := S.phase_set i (.inside l (.done q))
  refine ⟨_, halone.step (.leave hdone hq) (hfree.next _ _ halone), rfl, ?_, fun j hj => ?_, rfl⟩
  · simp [Scene.begin, Scene.set]
  · simp [Scene.begin, Scene.set, Function.update_of_ne hj]

/-- A call inside can go through all stages that it goes through alone, and gives the lock back. -/
theorem Reaches.visits {role : String} {n : Nat} {v : Visit σ} (h : m.Reaches A S₀ S)
    (hrole : (S.callers i).role = role) (hphase : (S.callers i).phase = .inside l p)
    (hp : p.run b S.world = (m.part role (.ensuring v.stage)).run b v.world) (hn : v.stage.left ≤ n)
    (hv : v.stage.left ≠ 0) :
    ∃ S' r, m.Reaches A S₀ S' ∧ (m.rest role v.stage).run b v.world = (r, S'.world) ∧
      (S'.callers i).phase = .ended (.ensuring (.ended r)) ∧
      (S'.callers i).past = .ensuring (.ended r) ::
        (((m.visitsFrom role b n v).tail.map fun u => Part.ensuring u.stage).reverse ++ (S.callers i).past) ∧
      (∀ j, j ≠ i → S'.callers j = S.callers j) ∧ S'.holder = Function.update S.holder l none := by
  induction n generalizing S v p with
  | zero => exact absurd (Nat.le_zero.mp hn) hv
  | succ n ih =>
      have hrun : p.run b S.world =
          (.ensuring (m.following role b v).stage, (m.following role b v).world) := by
        rw [hp, part, Plan.bind_eq, Plan.run_bind]
        rfl
      have hvisits : (m.visitsFrom role b (n + 1) v).tail = m.visitsFrom role b n (m.following role b v) := by
        rw [visitsFrom, if_neg hv, List.tail_cons]
      have hlt := m.left_following role b hv
      rw [hvisits, m.run_rest role b v]
      generalize m.following role b v = u at hrun hlt ⊢
      by_cases hu : u.stage.left = 0
      · obtain ⟨r, hr⟩ := rest_of_left_eq_zero hu
        rw [hr] at hrun ⊢
        obtain ⟨S', hS', hworld, hself, hothers, hholder⟩ := h.away hfree hphase hrun rfl
        refine ⟨S', r, hS', ?_, ?_, ?_, hothers, hholder⟩
        · rw [hworld]
          rfl
        · rw [hself]
        · rw [hself, visitsFrom_of_left_eq_zero m role b hu]
          rfl
      · have hq : (Part.ensuring u.stage).isLast = false := by
          cases hstage : u.stage with
          | ended r =>
              rw [hstage] at hu
              exact absurd rfl hu
          | _ => rfl
        obtain ⟨S', hS', hworld, hself, hothers, hholder⟩ := h.onward hfree hphase hrun hq
        rw [hrole] at hself
        obtain ⟨S'', r, hS'', hrest, hended, hpast, hothers', hholder'⟩ :=
          ih hS' (by rw [hself, ← hrole]) (by rw [hself]) (by rw [hworld]) (by omega) hu
        refine ⟨S'', r, hS'', hrest, hended, ?_, fun j hj => (hothers' j hj).trans (hothers j hj), ?_⟩
        · obtain ⟨k, rfl⟩ : ∃ k, n = k + 1 := ⟨n - 1, by omega⟩
          rw [hpast, hself, visitsFrom, if_neg hu, List.tail_cons, List.map_cons, List.reverse_cons,
            List.append_assoc]
          rfl
        · rw [hholder', hholder]

/-- A call for a session that gets the lock can be run to its end as it runs alone. -/
theorem Reaches.ensure {role : String} (h : m.Reaches A S₀ S)
    (hcaller : S.callers i = { role, phase := .waiting l }) (hl : S.holder l = none)
    (hA : ∀ S', A S (.enter i) S') :
    ∃ S' r, m.Reaches A S₀ S' ∧ (m.ensure role).run b S.world = (r, S'.world) ∧
      (S'.callers i).phase = .ended (.ensuring (.ended r)) ∧
      (S'.callers i).past = .ensuring (.ended r) ::
        ((m.visits role b S.world).map fun u => Part.ensuring u.stage).reverse ∧
      (∀ j, j ≠ i → S'.callers j = S.callers j) ∧ S'.holder = S.holder := by
  obtain ⟨S₁, hS₁, hworld, hself, hothers, hholder⟩ := h.enters (by rw [hcaller]) hl hA
  have hfirst : Caller.first { role, phase := .waiting l } = .ensuring .load := rfl
  rw [hcaller, hfirst] at hself
  have hrole : (S₁.callers i).role = role := by rw [hself]
  have hphase : (S₁.callers i).phase = .inside l ((m.part role (.ensuring .load)).noticing S.world.wall) := by
    rw [hself]
  have hrun : ((m.part role (.ensuring .load)).noticing S.world.wall).run b S₁.world =
      (m.part role (.ensuring .load)).run b S.world := by
    rw [hworld]
    exact run_noticing b _ _
  have hleft : (⟨.load, S.world⟩ : Visit σ).stage.left ≠ 0 := by simp [Stage.left]
  obtain ⟨S', r, hS', hrest, hended, hpast, hothers', hholder'⟩ :=
    hS₁.visits (v := ⟨.load, S.world⟩) hfree hrole hphase hrun (Nat.le_refl 5) hleft
  refine ⟨S', r, hS', ?_, hended, ?_, fun j hj => (hothers' j hj).trans (hothers j hj), ?_⟩
  · exact (m.run_ensure role b S.world).trans hrest
  · rw [hpast, hself, Manager.visits, visitsFrom, if_neg hleft, List.tail_cons, List.map_cons, List.reverse_cons]
  · rw [hholder', hholder, Function.update_idem, ← hl, Function.update_eq_self]

end

end

end Manager

end SignOn
