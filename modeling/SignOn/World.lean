import SignOn.Page.Race
import SignOn.Plan

/-! # The world of a plan

Runs plans in virtual time.  A `World` holds a page, a clock, a tree of files, an environment and a
server, and notes what has been asked of them.  Time passes only while a plan sleeps or waits for
the page.

* `World.step` says how long a request takes, what it leads to, and what is left of it if the
  caller walks away before.
* `Plan.run` runs a plan.  A request with a limit is given up at its limit, unless it is done by
  then or takes no time at all. -/

namespace SignOn

/-- A line of a log. -/
structure LogLine where
  level : Level
  component : String
  message : String
deriving DecidableEq, Repr

/-- What a plan is run in.  Times are in milliseconds, `now` since the start and `epoch`, the wall clock at the start,
since 1970; `server` is what the server will do.  What has been noted stands last first. -/
structure World (σ : Type) where
  page : σ
  now : Nat := 0
  epoch : Int := 0
  wallStopped : Bool := false
  disk : Files.Disk := {}
  environment : String → Option String := fun _ => none
  server : List Exchange := []
  counts : List (String × Nat) := []
  calls : List (Nat × PageCall) := []
  logs : List LogLine := []
  posts : List Post := []
  printed : List String := []
  complaints : List String := []

/-- What a request leads to: how many milliseconds it takes, the world once the reply is there, and the world if the
caller walks away so many milliseconds after the request. -/
structure Step (σ : Type) (α : Type) where
  duration : Nat
  reply : α
  after : World σ
  abandoned : Nat → World σ

namespace World

variable {σ : Type}

def wall (w : World σ) : Int :=
  if w.wallStopped then w.epoch else w.epoch + w.now

def advance (w : World σ) (ms : Nat) : World σ :=
  { w with now := w.now + ms }

def noteCall (w : World σ) (c : PageCall) : World σ :=
  { w with calls := (w.now, c) :: w.calls }

/-- A request that takes no time. -/
def immediate {α : Type} (reply : α) (w : World σ) : Step σ α :=
  ⟨0, reply, w, w.advance⟩

def callStep (b : PageBehaviour σ) (c : PageCall) (w : World σ) :
    Step σ (Except PageError c.Value) :=
  let r := b.respond c w.page w.now
  let w := w.noteCall c
  { duration := r.duration
    reply := r.outcome
    after := { w.advance r.duration with page := r.page }
    abandoned := fun ms => { w.advance ms with page := r.abandoned ms } }

/-- Two waits of the page at the same time.  Of two waits that end together it does not matter which is looked at
first, unless both of them fail. -/
def raceStep (b : PageBehaviour σ) (m : UrlMatch) (selector : String) (timeout : Nat)
    (w : World σ) : Step σ (Except PageError Unit) :=
  let settled := (b.race m selector timeout .element w.page w.now).settle 0 .both
  let first := b.respond (.waitForUrl m timeout) w.page w.now
  let w := (w.noteCall (.waitForUrl m timeout)).noteCall (.waitForSelector selector timeout)
  let ended (ms : Nat) : World σ :=
    let page := if first.duration ≤ ms then first.page else first.abandoned ms
    let second := b.respond (.waitForSelector selector timeout) page w.now
    { w.advance ms with
      page := if second.duration ≤ ms then second.page else second.abandoned ms }
  ⟨settled.duration, settled.outcome, ended settled.duration, ended⟩

/-- An operation on a file. -/
def fileStep (op : FileOp) (w : World σ) : Except FileError op.Value × World σ :=
  match op with
  | .read path => (w.disk.read path, w)
  | .modified path => (w.disk.modified path, w)
  | .names path => (w.disk.names path, w)
  | .write path content =>
    match w.disk.write w.wall path (.text content) with
    | .ok disk => (.ok (), { w with disk })
    | .error e => (.error e, w)
  | .rename source target =>
    match w.disk.rename w.wall source target with
    | .ok disk => (.ok (), { w with disk })
    | .error e => (.error e, w)
  | .remove path =>
    match w.disk.remove w.wall path with
    | .ok disk => (.ok (), { w with disk })
    | .error e => (.error e, w)
  | .makeDirectories path =>
    match w.disk.makeDirectories w.wall path with
    | (disk, none) => (.ok (), { w with disk })
    | (disk, some e) => (.error e, { w with disk })

def postStep (p : Post) (w : World σ) : Exchange × World σ :=
  let w := { w with posts := p :: w.posts }
  match w.server with
  | [] => (.unreachable, w)
  | e :: rest => (e, { w with server := rest })

/-- What a request leads to. -/
def step (b : PageBehaviour σ) (r : Request) (w : World σ) : Step σ r.Reply :=
  match r with
  | .page c => callStep b c w
  | .race m selector timeout => raceStep b m selector timeout w
  | .url => immediate (b.url w.page w.now) w
  | .sleep ms => ⟨ms, (), w.advance ms, w.advance⟩
  | .clock => immediate w.now w
  | .wallClock => immediate w.wall w
  | .log level component message =>
    immediate () { w with logs := ⟨level, component, message⟩ :: w.logs }
  | .env name => immediate (w.environment name) w
  | .file op =>
    let (reply, w) := fileStep op w
    immediate reply w
  | .post p =>
    let (reply, w) := postStep p w
    immediate reply w
  | .count key =>
    let n := (w.counts.lookup key).getD 0
    immediate n { w with counts := (key, n + 1) :: w.counts.filter (·.1 ≠ key) }
  | .acquire _ => immediate () w
  | .release _ => immediate () w
  | .print line => immediate () { w with printed := line :: w.printed }
  | .complain line => immediate () { w with complaints := line :: w.complaints }

end World

/-- Is a request that takes so long done by a limit?  One that takes no time always is. -/
def inTime (now duration limit : Nat) : Bool :=
  now + duration ≤ limit || duration = 0

/-- Run a plan. -/
def Plan.run {σ α : Type} (b : PageBehaviour σ) : Plan α → World σ → α × World σ
  | .done a, w => (a, w)
  | .ask r next, w =>
    let s := w.step b r
    (next s.reply).run b s.after
  | .askBy limit r next, w =>
    let s := w.step b r
    if inTime w.now s.duration limit then (next (some s.reply)).run b s.after
    else (next none).run b (s.abandoned (limit - w.now))

namespace Plan

variable {σ α β : Type} (b : PageBehaviour σ)

@[simp] theorem run_done (a : α) (w : World σ) : (Plan.done a).run b w = (a, w) := rfl

theorem run_ask (r : Request) (next : r.Reply → Plan α) (w : World σ) :
    (Plan.ask r next).run b w = (next (w.step b r).reply).run b (w.step b r).after := rfl

theorem run_bind (p : Plan α) (f : α → Plan β) (w : World σ) :
    (p.bind f).run b w = (f (p.run b w).1).run b (p.run b w).2 := by
  induction p generalizing w with
  | done a => rfl
  | ask r next ih => exact ih _ _
  | askBy limit r next ih =>
    simp only [bind, run]
    split <;> exact ih _ _

end Plan

end SignOn
