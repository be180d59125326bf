import SignOn.Provider.Basic

/-! # Signing on through a form of the application itself

* `logoutCandidates` are the addresses that are tried to sign off: the one of the settings, then
  the usual paths on the origin of the login. -/

namespace SignOn.Provider

def logoutPaths : List String :=
  ["/logout", "/signout", "/auth/logout", "/api/auth/logout"]

/-- Drop entries that equal the one before them. -/
def dropRepeated : List String → List String
  | [] => []
  | [a] => [a]
  | a :: b :: rest => if a = b then dropRepeated (b :: rest) else a :: dropRepeated (b :: rest)

/-- The addresses that are tried to sign off. -/
def logoutCandidates (s : FormSettings) : List String :=
  let usual := match Url.parse? s.loginUrl with
    | some u => logoutPaths.filterMap fun p => (u.withPath? p).map Url.text
    | none => []
  dropRepeated (s.logoutUrl.toList ++ usual)

/-- Fill and submit the form, and wait for the page behind it. -/
def formLogin (s : FormSettings) (role : String) (c : Credentials) : Attempt Unit := do
  Attempt.page role .navigation (.goto s.loginUrl s.navigationTimeout)
  Attempt.page role .credentials (.waitForSelector s.usernameSelector s.fieldTimeout)
  Attempt.page role .credentials (.fill s.usernameSelector c.username)
  Attempt.page role .credentials (.fill s.passwordSelector c.password)
  Attempt.page role .credentials (.click s.submitSelector)
  match ← Attempt.of (Page.waitForSuccess s.success s.success.timeoutMs) with
  | .ok _ => return
  | .error e => throw (.ofPage role .callback e)

/-- One login; on failure the page is searched for a banner that says why. -/
def formAttempt (s : FormSettings) (role : String) (c : Credentials) : Attempt SignedOn :=
  ExceptT.mk do
    let start ← Plan.clock
    match ← (formLogin s role c).run with
    | .ok _ => return .ok (← SignedOn.since start)
    | .error e => return .error (← withBanner e)

/-- Visit addresses until one ends the session; the last resort is to clear the cookies. -/
def visitCandidates (s : FormSettings) (role : String) (logger : Logger) :
    List String → Attempt Unit
  | [] => do
    Attempt.of (logger.warn
      ("no logout URL worked for role '" ++ role ++ "', clearing cookies"))
    Attempt.page role .callback .clearCookies
  | address :: rest => do
    match ← Attempt.of (Plan.page (.goto address s.navigationTimeout)) with
    | .error e => Attempt.of (logger.debug (address ++ ": " ++ PageError.message e))
    | .ok _ =>
      if ¬ (← Attempt.of (Page.sessionMatches s.success s.probe)) then
        Attempt.of (logger.info ("role '" ++ role ++ "' logged out via " ++ address))
        return
      Attempt.of (logger.debug (address ++ " left the session of '" ++ role ++ "' intact"))
    visitCandidates s role logger rest

/-- Sign off.  Without criteria no address can be seen to work, so the cookies are cleared in any
case. -/
def formLogout (s : FormSettings) (role : String) (logger : Logger) : Attempt Unit := do
  if s.success.isSet then
    visitCandidates s role logger (logoutCandidates s)
  else
    if let some address := s.logoutUrl then
      if let .error e := ← Attempt.of (Plan.page (.goto address s.navigationTimeout)) then
        Attempt.of (logger.debug (address ++ ": " ++ PageError.message e))
    Attempt.of (logger.info ("clearing cookies to log out role '" ++ role ++ "'"))
    Attempt.page role .callback .clearCookies

/-- Signing on through a form of the application itself. -/
def form (s : FormSettings) (role : String) (retry : RetryPolicy) (logger : Logger) :
    Provider where
  name := "form"
  role := role
  login c := withRetry retry role logger fun _ => formAttempt s role c
  isSessionValid := Page.sessionMatches s.success s.probe
  logout := formLogout s role logger

end SignOn.Provider
