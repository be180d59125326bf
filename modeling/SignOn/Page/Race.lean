import SignOn.Page.Call

/-! # Two waits at the same time

A race waits for an address and for an element at once.  Both waits start together and go on side by side.  The race
ends with the first one that succeeds; a wait that has failed is not looked at again, and the other one goes on.

* `Race.Pending` are the waits that still go on, at least one of them.
* `Race.next` is the pending wait that is over first, `Race.settle` takes them as they end.
* `PageBehaviour.race` are the waits of a page. -/

namespace SignOn

/-- A wait of a page: how many milliseconds it takes, and what it comes to. -/
structure Wait where
  duration : Nat
  outcome : Except PageError Unit

/-- The wait that a page answers to a call. -/
def Response.wait {σ : Type} (r : Response σ Unit) : Wait :=
  ⟨r.duration, r.outcome⟩

namespace Race

/-- One of the two waits. -/
inductive Side where
  | address
  | element
deriving DecidableEq, Repr, Inhabited

def Side.other : Side → Side
  | .address => .element
  | .element => .address

/-- The waits that still go on. -/
inductive Pending where
  | both
  | only (s : Side)
deriving DecidableEq, Repr, Inhabited

namespace Pending

def count : Pending → Nat
  | .both => 2
  | .only _ => 1

/-- What still goes on once one of the waits is over: less than before. -/
def without : (p : Pending) → Side → Option { rest : Pending // rest.count < p.count }
  | .both, s => some ⟨.only s.other, Nat.lt_add_one 1⟩
  | .only _, _ => none

end Pending

end Race

/-- A wait for an address and a wait for an element that start together.  The favourite is looked at first if both are
over. -/
structure Race where
  address : Wait
  element : Wait
  favourite : Race.Side

namespace Race

def wait (r : Race) : Side → Wait
  | .address => r.address
  | .element => r.element

/-- The pending wait that is over first. -/
def next (r : Race) : Pending → Side
  | .both =>
    if (r.wait r.favourite.other).duration < (r.wait r.favourite).duration then r.favourite.other else r.favourite
  | .only s => s

/-- Take the pending waits as they end, up to the first that succeeds or the last of them.  So many milliseconds have
gone by since the start. -/
def settle (r : Race) (elapsed : Nat) (p : Pending) : Wait :=
  let s := r.next p
  let elapsed := max elapsed (r.wait s).duration
  match (r.wait s).outcome with
  | .ok u => ⟨elapsed, .ok u⟩
  | .error e =>
    match p.without s with
    | none => ⟨elapsed, .error e⟩
    | some ⟨rest, _⟩ => r.settle elapsed rest
termination_by p.count

end Race

/-- The waits that a page answers if it is asked for an address and for an element at a time. -/
def PageBehaviour.race {σ : Type} (b : PageBehaviour σ) (m : UrlMatch) (selector : String) (timeout : Nat)
    (favourite : Race.Side) (page : σ) (now : Nat) : Race where
  address := (b.respond (.waitForUrl m timeout) page now).wait
  element := (b.respond (.waitForSelector selector timeout) page now).wait
  favourite

end SignOn
