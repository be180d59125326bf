import SignOn.Error
import SignOn.Json.Value
import SignOn.Settings.Basic

/-! # Calls to a page

What a sign-on asks of one tab of a browser, and what it gets as an answer. -/

namespace SignOn

/-- How far a page has to be loaded. -/
inductive LoadState where
  | load
  | domContentLoaded
  | networkIdle
deriving DecidableEq, Repr, Inhabited

def LoadState.name : LoadState → String
  | .load => "Load"
  | .domContentLoaded => "DomContentLoaded"
  | .networkIdle => "NetworkIdle"

/-- The cookies of a browser and what the origins have stored in it. -/
structure StoredSession where
  cookies : JsonItems := .nil
  origins : JsonItems := .nil
deriving DecidableEq, Inhabited

def StoredSession.toJson (s : StoredSession) : Json :=
  .object (.ofList [("cookies", .array s.cookies), ("origins", .array s.origins)])

/-- A call to a page.  Times are in milliseconds. -/
inductive PageCall where
  | goto (url : String) (timeout : Nat)
  | waitForUrl (m : UrlMatch) (timeout : Nat)
  | waitForSelector (selector : String) (timeout : Nat)
  | waitForLoadState (state : LoadState) (timeout : Nat)
  | fill (selector value : String)
  | click (selector : String)
  | isVisible (selector : String)
  | inputValue (selector : String)
  | textContent (selector : String)
  | evaluate (script : String)
  | reload (timeout : Nat)
  | storageState
  | clearCookies
deriving DecidableEq, Repr, Inhabited

/-- What a call answers when it succeeds. -/
def PageCall.Value : PageCall → Type
  | isVisible _ => Bool
  | inputValue _ => String
  | textContent _ => Option String
  | evaluate _ => Json
  | storageState => StoredSession
  | _ => Unit

/-- What a call leads to on a page with state `σ`: how many milliseconds it takes, the page when it returns, and the
page if the caller walks away before that, so many milliseconds after the call. -/
structure Response (σ α : Type) where
  duration : Nat
  outcome : Except PageError α
  page : σ
  abandoned : Nat → σ

/-- How a page with state `σ` behaves in time: its address at a time, and the answer to a call that is made at a time.
-/
structure PageBehaviour (σ : Type) where
  url : σ → Nat → String
  respond : (c : PageCall) → σ → Nat → Response σ c.Value

end SignOn
