import SignOn.Page.Call

/-! # Scripted pages

A page for rehearsals: it holds an address, visible elements, values, texts and a session, and
follows a script of reactions to calls, changes at given times, failures and delays.

* `advanceTo` carries out the changes whose time has come.
* `behaviour` is the page as plans see it.  A wait looks at once and then every ten milliseconds,
  the last time at its timeout. -/

namespace SignOn

/-- A change of a scripted page.  Among the new texts, `none` takes a text away. -/
structure Reaction where
  url : Option String := none
  hide : List String := []
  reveal : List String := []
  values : List (String × String) := []
  texts : List (String × Option String) := []
  session : Option StoredSession := none

/-- A page and what is left of its script: reactions by the call that they follow (the last of a list stays), changes
by their time, failures and delays in milliseconds by the name of the method, and results of scripts that are
evaluated. -/
structure ScriptedPage where
  url : String := ""
  visible : List String := []
  values : List (String × String) := []
  texts : List (String × String) := []
  session : StoredSession := {}
  reactions : List (String × List Reaction) := []
  timeline : List (Nat × Reaction) := []
  failures : List (String × List (Option PageError)) := []
  delays : List (String × Nat) := []
  results : List Json := []

def replaceKey {α : Type} (key : String) (a : α) (xs : List (String × α)) : List (String × α) :=
  (key, a) :: xs.filter (·.1 ≠ key)

/-- The name of the method of a call. -/
def PageCall.method : PageCall → String
  | .goto .. => "goto"
  | .waitForUrl .. => "wait_for_url"
  | .waitForSelector .. => "wait_for_selector"
  | .waitForLoadState .. => "wait_for_load_state"
  | .fill .. => "fill"
  | .click _ => "click"
  | .isVisible _ => "is_visible"
  | .inputValue _ => "input_value"
  | .textContent _ => "text_content"
  | .evaluate _ => "evaluate"
  | .reload _ => "reload"
  | .storageState => "storage_state"
  | .clearCookies => "clear_cookies"

namespace ScriptedPage

def apply (p : ScriptedPage) (r : Reaction) : ScriptedPage :=
  { p with
    url := r.url.getD p.url
    visible := p.visible.filter (fun s => !r.hide.contains s) ++ r.reveal
    values := r.values.foldl (fun vs v => replaceKey v.1 v.2 vs) p.values
    texts := r.texts.foldl (fun ts t => match t.2 with
      | some text => replaceKey t.1 text ts
      | none => ts.filter (·.1 ≠ t.1)) p.texts
    session := r.session.getD p.session }

/-- Carry out changes whose time has come. -/
def applyUpTo (now : Nat) (p : ScriptedPage) : List (Nat × Reaction) → ScriptedPage
  | [] => { p with timeline := [] }
  | (ms, r) :: rest =>
    if ms ≤ now then (p.apply r).applyUpTo now rest else { p with timeline := (ms, r) :: rest }

def advanceTo (p : ScriptedPage) (now : Nat) : ScriptedPage :=
  p.applyUpTo now p.timeline

def react (p : ScriptedPage) (call : String) : ScriptedPage :=
  match p.reactions.lookup call with
  | none => p
  | some [] => p
  | some [r] => p.apply r
  | some (r :: rest) => { p.apply r with reactions := replaceKey call rest p.reactions }

/-- Take the next failure of a method. -/
def takeFailure (p : ScriptedPage) (method : String) : Option PageError × ScriptedPage :=
  match p.failures.lookup method with
  | none => (none, p)
  | some [] => (none, p)
  | some (f :: rest) => (f, { p with failures := replaceKey method rest p.failures })

/-- Milliseconds after `start` at which a wait first sees what it waits for, and the page then.
`steps` bounds the changes of the page that are looked at. -/
def firstSeen (test : ScriptedPage → Bool) (start timeout : Nat) :
    (steps waited : Nat) → ScriptedPage → Option (Nat × ScriptedPage)
  | steps, waited, p =>
    if test p then some (waited, p)
    else
      match steps, p.timeline with
      | steps + 1, (ms, _) :: _ =>
        if start + timeout < ms then none
        else
          let tick := min ((ms - start + 9) / 10 * 10) timeout
          firstSeen test start timeout steps tick (p.advanceTo (start + tick))
      | _, _ => none

/-- A wait from `start` on.  It fails `late` milliseconds behind its timeout. -/
def wait (test : ScriptedPage → Bool) (start timeout late : Nat) (target : String)
    (p : ScriptedPage) : Nat × Except PageError Unit × ScriptedPage :=
  match firstSeen test start timeout p.timeline.length 0 p with
  | some (ms, p) => (ms, .ok (), p)
  | none => (timeout + late, .error (.timeout target timeout), p)

/-- Do something with a visible element. -/
def onVisible (p : ScriptedPage) (selector : String) (f : ScriptedPage → ScriptedPage) :
    Nat × Except PageError Unit × ScriptedPage :=
  if p.visible.contains selector then (0, .ok (), f p) else (0, .error (.selector selector), p)

/-- Carry out a call at a time: how long it takes, its outcome, and the page that it leaves. -/
def perform (p : ScriptedPage) (now : Nat) :
    (c : PageCall) → Nat × Except PageError c.Value × ScriptedPage
  | .goto url _ => (0, .ok (), { p with url }.react ("goto:" ++ url))
  | .waitForUrl m timeout => wait (fun p => m.holds p.url) now timeout 1 m.text p
  | .waitForSelector s timeout =>
    wait (fun p => p.visible.contains s) now timeout 0 ("selector '" ++ s ++ "'") p
  | .waitForLoadState .. => (0, .ok (), p)
  | .fill s value =>
    p.onVisible s fun p => { p with values := replaceKey s value p.values }.react ("fill:" ++ s)
  | .click s => p.onVisible s (·.react ("click:" ++ s))
  | .isVisible s => (0, .ok (p.visible.contains s), p)
  | .inputValue s => (0, .ok ((p.values.lookup s).getD ""), p)
  | .textContent s => (0, .ok (p.texts.lookup s), p)
  | .evaluate _ =>
    match p.results with
    | [] => (0, .ok Json.null, p)
    | v :: rest => (0, .ok v, { p with results := rest })
  | .reload _ => (0, .ok (), p.react "reload")
  | .storageState => (0, .ok p.session, p)
  | .clearCookies => (0, .ok (), { p with session := { p.session with cookies := .nil } })

def behaviour : PageBehaviour ScriptedPage where
  url p now := (p.advanceTo now).url
  respond c p now :=
    let delay := (p.delays.lookup c.method).getD 0
    match (p.advanceTo (now + delay)).takeFailure c.method with
    | (some e, begun) =>
      { duration := delay
        outcome := .error e
        page := begun
        abandoned := fun _ => p }
    | (none, begun) =>
      match begun.perform (now + delay) c with
      | (ms, outcome, page) =>
        { duration := delay + ms
          outcome, page
          abandoned := fun n => if n < delay then p else begun }

end ScriptedPage

end SignOn
