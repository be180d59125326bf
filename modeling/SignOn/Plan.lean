import SignOn.Files.Tree
import SignOn.Page.Call

/-! # Plans

A `Plan α` is a program that makes requests of its surroundings one after the other and ends with
a value of type `α`.  What the requests lead to is up to the world that the plan is run in.

* A `Request` is a call to the page, a look at a clock, a wait, a line of a log, an operation on a
  file, and so on; `Request.Reply` is the type of what comes back.
* A request may have a limit: if its reply has not come by then, it is given up.
* `Plan.within` puts a limit on every request of a plan, which then ends without a value at the first
  one that is given up. -/

namespace SignOn

/-- Importance of a line of a log. -/
inductive Level where
  | debug
  | info
  | warn
  | error
deriving DecidableEq, Repr, Inhabited

def Level.name : Level → String
  | .debug => "debug"
  | .info => "info"
  | .warn => "warn"
  | .error => "error"

/-- Where a level stands, the most important one first. -/
def Level.rank : Level → Nat
  | .error => 0
  | .warn => 1
  | .info => 2
  | .debug => 3

/-- An operation on a file. -/
inductive FileOp where
  | read (path : String)
  | write (path : String) (content : String)
  | rename (source target : String)
  | remove (path : String)
  | makeDirectories (path : String)
  | modified (path : String)
  | names (path : String)
deriving DecidableEq, Repr

/-- What an operation on a file gives. -/
def FileOp.Value : FileOp → Type
  | .read _ => Files.Content
  | .modified _ => Int
  | .names _ => List String
  | _ => Unit

/-- A request to an endpoint: a JSON document that is posted to an address, and how many milliseconds to wait for the
answer. -/
structure Post where
  address : String
  body : Json
  timeout : Nat
deriving DecidableEq

/-- What became of a request to an endpoint: it was answered with a status and a body, there was no answer in time,
the endpoint was not reached, or the connection broke before the answer. -/
inductive Exchange where
  | answer (status : Nat) (body : String)
  | timedOut
  | unreachable
  | brokenOff
deriving DecidableEq, Repr, Inhabited

/-- Something that a plan asks of its surroundings.  A race is over when its address or its element comes, the clocks
show milliseconds since the start and since 1970, `count` is how often it has been asked for a key before, a lock is
waited for and taken, and given back, and `complain` prints a line about an error. -/
inductive Request where
  | page (c : PageCall)
  | race (m : UrlMatch) (selector : String) (timeout : Nat)
  | url
  | sleep (ms : Nat)
  | clock
  | wallClock
  | log (level : Level) (component message : String)
  | env (name : String)
  | file (op : FileOp)
  | post (p : Post)
  | count (key : String)
  | acquire (role : String)
  | release (role : String)
  | print (line : String)
  | complain (line : String)

def Request.Reply : Request → Type
  | .page c => Except PageError c.Value
  | .race .. => Except PageError Unit
  | .url => String
  | .clock => Nat
  | .wallClock => Int
  | .env _ => Option String
  | .file op => Except FileError op.Value
  | .post _ => Exchange
  | .count _ => Nat
  | _ => Unit

/-- A program over requests.  With `askBy` a request is given up at a time. -/
inductive Plan (α : Type) : Type where
  | done (a : α)
  | ask (r : Request) (next : r.Reply → Plan α)
  | askBy (limit : Nat) (r : Request) (next : Option r.Reply → Plan α)

namespace Plan

def bind {α β : Type} : Plan α → (α → Plan β) → Plan β
  | .done a, f => f a
  | .ask r next, f => .ask r fun x => (next x).bind f
  | .askBy limit r next, f => .askBy limit r fun x => (next x).bind f

instance : Monad Plan where
  pure := .done
  bind := .bind

@[simp] theorem pure_eq {α : Type} (a : α) : (pure a : Plan α) = .done a := rfl

@[simp] theorem bind_eq {α β : Type} (p : Plan α) (f : α → Plan β) : p >>= f = p.bind f := rfl

@[simp] theorem bind_done {α : Type} (p : Plan α) : p.bind .done = p := by
  induction p with
  | done a => rfl
  | ask r next ih => simp only [bind, ih]
  | askBy limit r next ih => simp only [bind, ih]

theorem bind_assoc {α β γ : Type} (p : Plan α) (f : α → Plan β) (g : β → Plan γ) :
    (p.bind f).bind g = p.bind fun a => (f a).bind g := by
  induction p with
  | done a => rfl
  | ask r next ih => simp only [bind, ih]
  | askBy limit r next ih => simp only [bind, ih]

instance : LawfulMonad Plan :=
  LawfulMonad.mk' Plan
    (fun p => bind_done p) (fun _ _ => rfl) (fun p f g => bind_assoc p f g)

def request (r : Request) : Plan r.Reply :=
  .ask r .done

/-- Put a limit on every request of a plan.  A request that has a limit of its own keeps the
earlier one. -/
def within {α : Type} (limit : Nat) : Plan α → Plan (Option α)
  | .done a => .done (some a)
  | .ask r next => .askBy limit r fun
    | some x => (next x).within limit
    | none => .done none
  | .askBy l r next => .askBy (min l limit) r fun x => (next x).within limit

def page (c : PageCall) : Plan (Except PageError c.Value) :=
  request (.page c)

def url : Plan String :=
  request .url

/-- Wait. -/
def sleep (ms : Nat) : Plan Unit :=
  request (.sleep ms)

/-- Wait, unless there is nothing to wait for. -/
def settle (ms : Nat) : Plan Unit :=
  if ms = 0 then pure () else sleep ms

/-- Milliseconds since the start. -/
def clock : Plan Nat :=
  request .clock

/-- Milliseconds since 1970. -/
def wallClock : Plan Int :=
  request .wallClock

/-- A variable of the environment. -/
def env (name : String) : Plan (Option String) :=
  request (.env name)

def file (op : FileOp) : Plan (Except FileError op.Value) :=
  request (.file op)

def print (line : String) : Plan Unit :=
  request (.print line)

end Plan

/-- Writes lines of a log under the name of a component, and knows whether secrets are masked. -/
structure Logger where
  component : String
  masks : Bool := true
deriving DecidableEq, Repr, Inhabited

namespace Logger

/-- The logger of what is no component of its own. -/
def standard : Logger :=
  { component := "authstate" }

/-- The same logger for another component. -/
def child (l : Logger) (component : String) : Logger :=
  { l with component }

/-- A secret as it may stand in a log. -/
def mask (l : Logger) (secret : String) : String :=
  if l.masks then "****" else secret

def write (l : Logger) (level : Level) (message : String) : Plan Unit :=
  Plan.request (.log level l.component message)

def debug (l : Logger) (message : String) : Plan Unit :=
  l.write .debug message

def info (l : Logger) (message : String) : Plan Unit :=
  l.write .info message

def warn (l : Logger) (message : String) : Plan Unit :=
  l.write .warn message

def error (l : Logger) (message : String) : Plan Unit :=
  l.write .error message

end Logger

end SignOn
