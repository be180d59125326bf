import SignOn.Provider.Form
import SignOn.Provider.Oidc
import SignOn.Provider.Token

/-! # Providers from settings -/

namespace SignOn.Provider

/-- The provider that the settings ask for. -/
def ofSettings (s : Settings) (role : String) (registry : Idp.Registry) (logger : Logger) :
    Except Inconsistency Provider :=
  match s.provider with
  | .oidc =>
    match s.oidcFor role with
    | some o => .ok (oidc o role s.retry registry (logger.child "oidc"))
    | none => .error (.sectionMissing .oidc)
  | .form =>
    match s.form with
    | some f => .ok (form f role s.retry (logger.child "form"))
    | none => .error (.sectionMissing .form)
  | .token =>
    match s.token with
    | some t => .ok (token t role s.retry (logger.child "token"))
    | none => .error (.sectionMissing .token)
  | .custom => .error (.notRegistered role)

end SignOn.Provider
