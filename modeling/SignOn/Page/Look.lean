import SignOn.Plan
import SignOn.Text.Blank
import SignOn.Url.Basic

/-! # Looking at a page

* `waitVisible` looks for an element again and again for a limited time.
* `waitForSuccess` waits for the page behind a login, `sessionMatches` asks whether it is there.
* `detectError` reads the banner of a failed login. -/

namespace SignOn.Page

/-- Is an element visible right now?  A failure of the page counts as no. -/
def sees (selector : String) : Plan Bool := do
  match ← Plan.page (.isVisible selector) with
  | .ok true => return true
  | _ => return false

/-- Look for an element every `interval` milliseconds, the last time at the deadline.  `fuel` bounds
the looks. -/
def waitVisibleUntil (selector : String) (interval deadline : Nat) : (fuel : Nat) → Plan Bool
  | 0 => return false
  | fuel + 1 => do
    if ← sees selector then
      return true
    let now ← Plan.clock
    if now ≥ deadline then
      return false
    Plan.sleep (min interval (deadline - now))
    waitVisibleUntil selector interval deadline fuel

/-- Look for an element until it is visible or the time of the probe is over. -/
def waitVisible (selector : String) (probe : Probe) : Plan Bool := do
  let start ← Plan.clock
  waitVisibleUntil selector (max probe.interval 1) (start + probe.timeout) (probe.timeout + 1)

/-- The first of several elements that is visible right now. -/
def firstVisible : List String → Plan (Option String)
  | [] => return none
  | s :: rest => do
    if ← sees s then
      return some s
    firstVisible rest

/-- The host of the page's address. -/
def host : Plan (Option String) :=
  return Url.hostOf? (← Plan.url)

/-- Wait for the page behind a login: for its address or its element, whichever comes first, and
without either for a quiet network. -/
def waitForSuccess (c : SuccessCriteria) (timeout : Nat) : Plan (Except PageError Unit) :=
  match c.url, c.selector with
  | some m, some s => Plan.request (.race m s timeout)
  | some m, none => Plan.page (.waitForUrl m timeout)
  | none, some s => Plan.page (.waitForSelector s timeout)
  | none, none => Plan.page (.waitForLoadState .networkIdle timeout)

/-- Is this the page behind a login?  Without criteria the answer is no. -/
def sessionMatches (c : SuccessCriteria) (probe : Probe) : Plan Bool := do
  if ¬ c.isSet then
    return false
  if let some m := c.url then
    if ¬ m.holds (← Plan.url) then
      return false
  match c.selector with
  | some s => waitVisible s probe
  | none => return true

/-- The banners of failed logins, in the order in which they are looked for. -/
def errorSelectors : List String :=
  ["#input-error", ".alert-error", "#kc-error-message", "#usernameError", "#passwordError",
   ".o-form-error-container", ".okta-form-infobox-error", "[role=\"alert\"]", ".error-message",
   ".alert-danger"]

/-- The text of the first of several banners that is visible and not blank. -/
def detectErrorIn : List String → Plan (Option String)
  | [] => return none
  | s :: rest => do
    if ← sees s then
      if let .ok (some text) ← Plan.page (.textContent s) then
        let trimmed := Text.trim text
        if trimmed ≠ "" then
          return some trimmed
    detectErrorIn rest

/-- The text of the banner of a failed login. -/
def detectError : Plan (Option String) :=
  detectErrorIn errorSelectors

end SignOn.Page
