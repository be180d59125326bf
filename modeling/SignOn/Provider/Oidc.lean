import SignOn.Provider.Basic

/-! # Signing on through an identity provider -/

namespace SignOn.Provider

/-- Sign off: visit the place to sign off, let a sign-off at the identity provider come to an end,
and clear the cookies. -/
def oidcLogout (s : OidcSettings) (role : String) (logger : Logger) : Attempt Unit := do
  if let some l := s.logout then
    Attempt.of (logger.info ("logging out role '" ++ role ++ "' via " ++ l.url))
    Attempt.page role .navigation (.goto l.url s.timeouts.idpRedirect)
    if l.idpLogout then
      if let .error e := ← Attempt.of
          (Plan.page (.waitForLoadState .networkIdle s.timeouts.callback)) then
        Attempt.of (logger.warn
          ("IdP logout did not settle for role '" ++ role ++ "': " ++ PageError.message e))
  Attempt.page role .callback .clearCookies

/-- Is an address the one of the login, here or at the identity provider? -/
def isLoginAddress (s : OidcSettings) (address : String) : Bool :=
  Text.contains address s.loginUrl || s.idpLoginUrl.any (Text.contains address)

/-- Reload the page and see whether the session is still there. -/
def oidcRefresh (s : OidcSettings) (role : String) (logger : Logger) (flow : Flow) :
    Plan Bool := do
  match ← Plan.page (.reload s.timeouts.callback) with
  | .error e =>
    logger.warn ("session refresh for role '" ++ role ++ "' failed: " ++ e.message)
    return false
  | .ok _ =>
    let address ← Plan.url
    if isLoginAddress s address then
      logger.info ("session of role '" ++ role ++ "' expired, reload landed on " ++ address)
      return false
    flow.isSessionValid

/-- Signing on through an identity provider. -/
def oidc (s : OidcSettings) (role : String) (retry : RetryPolicy) (registry : Idp.Registry)
    (logger : Logger) : Provider :=
  let flow : Flow := { settings := s, registry, logger := logger.child "flow" }
  { name := "oidc"
    role
    login := fun c => withRetry retry role logger fun attempt => do
      Attempt.of (logger.debug
        ("OIDC login attempt " ++ toString (attempt + 1) ++ " for role '" ++ role ++ "'"))
      flow.execute role c
    isSessionValid := flow.isSessionValid
    logout := oidcLogout s role logger
    refresh := some (oidcRefresh s role logger flow) }

end SignOn.Provider
