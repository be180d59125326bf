import Mathlib.Data.List.Forall2
import SignOn.Proofs.Handlers

/-! # Two runs with different secrets

* A `Veil` holds two values of a secret and the fields that the secret is meant for.  Two calls to the page
  are twins (`PageCall.Twin`) if they differ in the value of the secret at most, two worlds
  (`World.Twin`) if they differ in such calls and in the state of the page at most.
* `PageBehaviour.Indifferent` says of a page that it reacts to any two values that are not empty in the same
  way: a step of the world keeps twins (`World.Twin.step`).
* `Plan.Twin` says from the text of two plans alone that they make the same requests up to entries of the
  secret, whatever the replies are, and that of a field which is read back only the emptiness counts.  A plan
  that reads no field back is its own twin (`Plan.Obeys.twin`), and twins stay twins behind one another and
  under a limit.  They come to the same value and leave twin worlds (`Plan.Twin.run`). -/

namespace SignOn

/-- Two values of a secret, and the fields that the secret is meant for. -/
structure Veil where
  covers : String → Prop
  left : String
  right : String

/-- Neither value is empty. -/
structure Veil.Filled (v : Veil) : Prop where
  left : v.left ≠ ""
  right : v.right ≠ ""

/-! ### Calls and what they lead to -/

/-- Two calls that are the same, or enter the two values of the secret into one of its fields. -/
inductive PageCall.Twin (v : Veil) : PageCall → PageCall → Prop
  | same (c : PageCall) : Twin v c c
  | fill {selector : String} (h : v.covers selector) :
    Twin v (.fill selector v.left) (.fill selector v.right)

/-- Two values of a call that are the same.  Of what stands in a field only the emptiness counts. -/
def PageCall.SameValue (c : PageCall) : c.Value → c.Value → Prop :=
  match c with
  | .inputValue _ => fun (x y : String) => x = "" ↔ y = ""
  | _ => Eq

/-- The same failure, or two values in a relation. -/
def SameOutcome {α β : Type} (V : α → β → Prop) : Except PageError α → Except PageError β → Prop
  | .ok x, .ok y => V x y
  | .error e, .error e' => e = e'
  | _, _ => False

theorem SameOutcome.eq {α : Type} {x y : Except PageError α} (h : SameOutcome Eq x y) : x = y := by
  cases x <;> cases y
  · exact congrArg Except.error h
  · exact h.elim
  · exact h.elim
  · exact congrArg Except.ok h

/-- Two responses that cannot be told apart: in time, by their outcome, and by the page that they leave. -/
structure Response.Twin {σ α β : Type} (R : σ → σ → Prop) (V : α → β → Prop) (r : Response σ α)
    (r' : Response σ β) : Prop where
  duration : r'.duration = r.duration
  outcome : SameOutcome V r.outcome r'.outcome
  page : R r.page r'.page
  abandoned : ∀ ms, R (r.abandoned ms) (r'.abandoned ms)

theorem Response.Twin.ended {σ α β : Type} {R : σ → σ → Prop} {V : α → β → Prop} {r : Response σ α}
    {r' : Response σ β} (h : r.Twin R V r') (ms : Nat) :
    R (if r.duration ≤ ms then r.page else r.abandoned ms)
      (if r'.duration ≤ ms then r'.page else r'.abandoned ms) := by
  rw [h.duration]
  split
  · exact h.page
  · exact h.abandoned ms

theorem Response.Twin.wait_eq {σ : Type} {R : σ → σ → Prop} {r r' : Response σ Unit} (h : r.Twin R Eq r') :
    r'.wait = r.wait :=
  congrArg₂ Wait.mk h.duration h.outcome.eq.symm

/-- The page reacts to any two values in some fields in the same way, as long as they are not empty: `R`
relates its states that differ in such values.  They answer every call alike, and an entry of two values
leads to two such states. -/
structure PageBehaviour.Indifferent {σ : Type} (b : PageBehaviour σ) (fields : String → Prop)
    (R : σ → σ → Prop) : Prop where
  url : ∀ s s' t, R s s' → b.url s' t = b.url s t
  respond : ∀ c s s' t, R s s' → (b.respond c s t).Twin R c.SameValue (b.respond c s' t)
  fill : ∀ selector x y s s' t, fields selector → x ≠ "" → y ≠ "" → R s s' →
    (b.respond (.fill selector x) s t).Twin R Eq (b.respond (.fill selector y) s' t)

/-! ### Requests -/

/-- Two replies to a request that are the same, but for what stands in a field. -/
def Request.SameReply (r : Request) : r.Reply → r.Reply → Prop :=
  match r with
  | .page c => SameOutcome c.SameValue
  | _ => Eq

/-- Two requests that are the same, or enter the two values of the secret into one of its fields; and how
their replies are related. -/
inductive Request.Twin (v : Veil) : (r r' : Request) → (r.Reply → r'.Reply → Prop) → Prop
  | same (r : Request) : Twin v r r r.SameReply
  | fill {selector : String} (h : v.covers selector) :
    Twin v (.page (.fill selector v.left)) (.page (.fill selector v.right)) (SameOutcome Eq)

theorem Request.Blind.eq {r : Request} (h : r.Blind) {x y : r.Reply} (hxy : r.SameReply x y) : x = y := by
  cases r with
  | page c => cases c <;> first | exact h.elim | exact SameOutcome.eq hxy
  | _ => exact hxy

/-! ### Worlds -/

section

variable {σ : Type} {v : Veil} {R : σ → σ → Prop} {b : PageBehaviour σ} {w w' : World σ}

/-- Two calls at the same time that are twins. -/
def SameCall (v : Veil) (x y : Nat × PageCall) : Prop :=
  y.1 = x.1 ∧ x.2.Twin v y.2

/-- The same world with another page and other calls. -/
def World.withTab (w : World σ) (page : σ) (calls : List (Nat × PageCall)) : World σ :=
  { w with page, calls }

/-- Two worlds that are the same up to the values of the secret that have been entered. -/
def World.Twin (v : Veil) (R : σ → σ → Prop) (w w' : World σ) : Prop :=
  ∃ page calls, w' = w.withTab page calls ∧ R w.page page ∧ List.Forall₂ (SameCall v) w.calls calls

/-- Two steps that take the same time, with replies in a relation, and leave twins. -/
structure Step.Twin {α β : Type} (v : Veil) (R : σ → σ → Prop) (S : α → β → Prop) (s : Step σ α)
    (s' : Step σ β) : Prop where
  duration : s'.duration = s.duration
  reply : S s.reply s'.reply
  after : s.after.Twin v R s'.after
  abandoned : ∀ ms, (s.abandoned ms).Twin v R (s'.abandoned ms)

namespace World.Twin

theorem refl {w : World σ} (hw : R w.page w.page) : w.Twin v R w := by
  refine ⟨w.page, w.calls, rfl, hw, ?_⟩
  exact List.forall₂_same.mpr fun x _ => ⟨rfl, .same x.2⟩

theorem advance (h : w.Twin v R w') (ms : Nat) : (w.advance ms).Twin v R (w'.advance ms) := by
  obtain ⟨page, calls, rfl, hpage, hcalls⟩ := h
  exact ⟨page, calls, rfl, hpage, hcalls⟩

theorem noteCall (h : w.Twin v R w') {c c' : PageCall} (hc : c.Twin v c') :
    (w.noteCall c).Twin v R (w'.noteCall c') := by
  obtain ⟨page, calls, rfl, hpage, hcalls⟩ := h
  exact ⟨page, _, rfl, hpage, .cons ⟨rfl, hc⟩ hcalls⟩

theorem withPage (h : w.Twin v R w') {page page' : σ} (hpage : R page page') :
    World.Twin v R { w with page } { w' with page := page' } := by
  obtain ⟨_, calls, rfl, -, hcalls⟩ := h
  exact ⟨page', calls, rfl, hpage, hcalls⟩

theorem now_eq (h : w.Twin v R w') : w'.now = w.now := by
  obtain ⟨page, calls, rfl, -, -⟩ := h
  rfl

theorem logs_eq (h : w.Twin v R w') : w'.logs = w.logs := by
  obtain ⟨page, calls, rfl, -, -⟩ := h
  rfl

theorem calls (h : w.Twin v R w') : List.Forall₂ (SameCall v) w.calls w'.calls := by
  obtain ⟨page, calls, rfl, -, hcalls⟩ := h
  exact hcalls

theorem immediate {α : Type} (reply : α) (h : w.Twin v R w') :
    (World.immediate reply w).Twin v R Eq (World.immediate reply w') :=
  ⟨rfl, rfl, h, fun ms => h.advance ms⟩

theorem callStep (h : w.Twin v R w') {c c' : PageCall} (hc : c.Twin v c') {V : c.Value → c'.Value → Prop}
    (hr : (b.respond c w.page w.now).Twin R V (b.respond c' w'.page w'.now)) :
    (World.callStep b c w).Twin v R (SameOutcome V) (World.callStep b c' w') := by
  have hnoted := h.noteCall hc
  refine ⟨hr.duration, hr.outcome, ?_, fun ms => ?_⟩
  · have hduration : (w'.noteCall c').advance (b.respond c' w'.page w'.now).duration =
        (w'.noteCall c').advance (b.respond c w.page w.now).duration := by rw [hr.duration]
    simp only [World.callStep]
    rw [hduration]
    exact (hnoted.advance _).withPage hr.page
  · exact (hnoted.advance ms).withPage (hr.abandoned ms)

theorem raceStep (hb : b.Indifferent v.covers R) (h : w.Twin v R w') (m : UrlMatch) (selector : String)
    (timeout : Nat) :
    (World.raceStep b m selector timeout w).Twin v R Eq (World.raceStep b m selector timeout w') := by
  obtain ⟨page, calls, rfl, hpage, hcalls⟩ := h
  have hfirst := hb.respond (.waitForUrl m timeout) w.page page w.now hpage
  have halone := hb.respond (.waitForSelector selector timeout) w.page page w.now hpage
  have hnoted : ((w.noteCall (.waitForUrl m timeout)).noteCall (.waitForSelector selector timeout)).Twin v R
      (((w.withTab page calls).noteCall (.waitForUrl m timeout)).noteCall
        (.waitForSelector selector timeout)) :=
    (World.Twin.noteCall ⟨page, calls, rfl, hpage, hcalls⟩ (.same _)).noteCall (.same _)
  -- Whenever the race ends, both waits leave related pages, the second one behind the first.
  have hended := fun ms => (hnoted.advance ms).withPage
    ((hb.respond (.waitForSelector selector timeout) _ _ w.now (hfirst.ended ms)).ended ms)
  have hpage' : (w.withTab page calls).page = page := rfl
  have hnow : (w.withTab page calls).now = w.now := rfl
  simp only [World.raceStep, PageBehaviour.race, hpage', hnow, hfirst.wait_eq, halone.wait_eq]
  exact ⟨rfl, rfl, hended _, hended⟩

/-- Twin requests in twin worlds lead to twin worlds, in the same time. -/
theorem step (hb : b.Indifferent v.covers R) (hv : v.Filled) (h : w.Twin v R w') {r r' : Request}
    {S : r.Reply → r'.Reply → Prop} (hr : r.Twin v r' S) : (w.step b r).Twin v R S (w'.step b r') := by
  cases hr with
  | fill hcovers =>
      obtain ⟨page, calls, rfl, hpage, hcalls⟩ := h
      exact World.Twin.callStep ⟨page, calls, rfl, hpage, hcalls⟩ (.fill hcovers)
        (hb.fill _ _ _ _ _ _ hcovers hv.left hv.right hpage)
  | same =>
      obtain ⟨page, calls, rfl, hpage, hcalls⟩ := h
      have htwin : w.Twin v R (w.withTab page calls) := ⟨page, calls, rfl, hpage, hcalls⟩
      cases r with
      | page c => exact htwin.callStep (.same c) (hb.respond c _ _ _ hpage)
      | race m selector timeout => exact htwin.raceStep hb m selector timeout
      | url => exact ⟨rfl, (hb.url _ _ _ hpage).symm, htwin, fun ms => htwin.advance ms⟩
      | file op =>
          have hfile := World.fileStep_congr (v := w) (w := w.withTab page calls) rfl rfl op
          have hkept : World.Twin v R (w.withDisk (World.fileStep op w).2.disk)
              ((w.withTab page calls).withDisk (World.fileStep op w).2.disk) :=
            ⟨page, calls, rfl, hpage, hcalls⟩
          rw [← World.fileStep_eq] at hkept
          simp only [World.step, hfile]
          exact hkept.immediate _
      | post p =>
          have hserver : (w.withTab page calls).server = w.server := rfl
          simp only [World.step, World.postStep, hserver]
          cases w.server with
          | nil => exact World.Twin.immediate _ ⟨page, calls, rfl, hpage, hcalls⟩
          | cons e rest => exact World.Twin.immediate _ ⟨page, calls, rfl, hpage, hcalls⟩
      | sleep ms => exact ⟨rfl, rfl, htwin.advance ms, fun ms => htwin.advance ms⟩
      | _ => exact World.Twin.immediate _ ⟨page, calls, rfl, hpage, hcalls⟩

end World.Twin

end

/-! ### Plans -/

namespace Plan

variable {α β : Type}

/-- Whatever the replies are, the plans make twin requests and end with the same value. -/
inductive Twin (v : Veil) : Plan α → Plan α → Prop
  | done (a : α) : Twin v (.done a) (.done a)
  | ask {r r' : Request} {S : r.Reply → r'.Reply → Prop} {f : r.Reply → Plan α} {g : r'.Reply → Plan α}
    (hr : r.Twin v r' S) (h : ∀ x y, S x y → Twin v (f x) (g y)) : Twin v (.ask r f) (.ask r' g)
  | askBy {limit : Nat} {r r' : Request} {S : r.Reply → r'.Reply → Prop} {f : Option r.Reply → Plan α}
    {g : Option r'.Reply → Plan α} (hr : r.Twin v r' S) (h : ∀ x y, S x y → Twin v (f (some x)) (g (some y)))
    (hnone : Twin v (f none) (g none)) : Twin v (.askBy limit r f) (.askBy limit r' g)

variable {v : Veil}

/-- A plan that reads no field back is its own twin. -/
theorem Obeys.twin {Q : α → Prop} {p : Plan α} (h : p.Obeys Request.Blind Q) : p.Twin v p := by
  induction p with
  | done a => exact .done a
  | ask r f ih =>
      refine .ask (.same r) fun x y hxy => ?_
      obtain rfl := h.1.eq hxy
      exact ih x (h.2 x)
  | askBy limit r f ih =>
      refine .askBy (.same r) (fun x y hxy => ?_) (ih none (h.2 none))
      obtain rfl := h.1.eq hxy
      exact ih (some x) (h.2 (some x))

theorem twin_ask {r : Request} {f g : r.Reply → Plan α} (hr : r.Blind) (h : ∀ x, (f x).Twin v (g x)) :
    ((request r).bind f).Twin v ((request r).bind g) := by
  refine .ask (.same r) fun x y hxy => ?_
  obtain rfl := hr.eq hxy
  exact h x

namespace Twin

theorem bind {p p' : Plan α} {f g : α → Plan β} (h : p.Twin v p') (hfg : ∀ a, (f a).Twin v (g a)) :
    (p.bind f).Twin v (p'.bind g) := by
  induction h with
  | done a => exact hfg a
  | ask hr _ ih => exact .ask hr ih
  | askBy hr _ _ ih ihnone => exact .askBy hr ih ihnone

theorem within {p p' : Plan α} (h : p.Twin v p') (limit : Nat) :
    (p.within limit).Twin v (p'.within limit) := by
  induction h with
  | done a => exact .done _
  | ask hr _ ih =>
      rw [Plan.within, Plan.within]
      exact .askBy hr ih (.done none)
  | askBy hr _ _ ih ihnone =>
      rw [Plan.within, Plan.within]
      exact .askBy hr ih ihnone

/-- **Twins cannot be told apart.**  On a page that reacts to the two values in the same way they come to the
same value, and what they leave differs in the values entered at most. -/
theorem run {σ : Type} {b : PageBehaviour σ} {R : σ → σ → Prop} (hb : b.Indifferent v.covers R)
    (hv : v.Filled) {p p' : Plan α} (h : p.Twin v p') {w w' : World σ} (hw : w.Twin v R w') :
    (p'.run b w').1 = (p.run b w).1 ∧ (p.run b w).2.Twin v R (p'.run b w').2 := by
  induction h generalizing w w' with
  | done a => exact ⟨rfl, hw⟩
  | ask hr _ ih =>
      have hstep := hw.step hb hv hr
      exact ih _ _ hstep.reply hstep.after
  | @askBy limit r r' S f g hr _ _ ih ihnone =>
      have hstep := hw.step hb hv hr
      have hnow : w'.now = w.now := hw.now_eq
      simp only [Plan.run, hstep.duration, hnow]
      split
      · exact ih _ _ hstep.reply hstep.after
      · exact ihnone (hstep.abandoned _)

end Twin

end Plan

/-! ### Attempts -/

namespace Attempt

variable {α β : Type} {v : Veil} {E : AuthError → Prop}

/-- Two attempts whose plans are twins. -/
def Twin (v : Veil) (p p' : Attempt α) : Prop :=
  Plan.Twin v p.run p'.run

/-- An attempt that reads no field back is its own twin. -/
theorem Obeys.twin {p : Attempt α} (h : p.Obeys Request.Blind E) : p.Twin v p :=
  Plan.Obeys.twin h

theorem Twin.bind {p p' : Attempt α} {f g : α → Attempt β} (h : p.Twin v p')
    (hfg : ∀ a, (f a).Twin v (g a)) : (p >>= f).Twin v (p' >>= g) := by
  refine Plan.Twin.bind h fun r => ?_
  cases r with
  | ok a => exact hfg a
  | error e => exact .done _

theorem twin_of {p p' : Plan α} (h : p.Twin v p') : (Attempt.of p).Twin v (Attempt.of p') :=
  Plan.Twin.bind h fun _ => .done _

theorem twin_pure (a : α) : (pure a : Attempt α).Twin v (pure a) := .done _

theorem twin_write (l : Logger) (level : Level) (message : String) :
    (Attempt.of (l.write level message)).Twin v (Attempt.of (l.write level message)) :=
  twin_of (.ask (.same _) fun _ _ _ => .done _)

theorem twin_page_bind {role : String} {phase : AuthPhase} {c : PageCall} {f g : c.Value → Attempt β}
    (hc : (Request.page c).Blind) (hfg : ∀ x, (f x).Twin v (g x)) :
    (Attempt.page role phase c >>= f).Twin v (Attempt.page role phase c >>= g) :=
  have hpage : (Attempt.page role phase c).Obeys Request.Blind fun _ => True :=
    obeys_page hc fun _ => trivial
  hpage.twin.bind hfg

theorem twin_fill {role : String} {phase : AuthPhase} {selector : String} (h : v.covers selector) :
    (Attempt.page role phase (.fill selector v.left)).Twin v
      (Attempt.page role phase (.fill selector v.right)) := by
  refine .ask (.fill h) fun x y hxy => ?_
  obtain rfl := hxy.eq
  cases x with
  | ok u => exact .done _
  | error e => exact .done _

end Attempt

end SignOn
