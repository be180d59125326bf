import SignOn.Settings.Basic
import SignOn.Url.Basic

/-! # Telling identity providers apart

The family of an identity provider shows in the host and the path of its address.  Query and
fragment of an address do not count; of a text that is no address everything does. -/

namespace SignOn.IdpKind

/-- The family for a host and a path in lower case. -/
def ofHostAndPath (host path : String) : IdpKind :=
  if Text.contains host "okta.com" || Text.contains host "oktapreview.com" then .okta
  else if Text.contains host "login.microsoftonline.com"
      || Text.contains host "login.microsoft.com" || Text.contains host "login.live.com" then
    .azureAd
  else if Text.contains path "/auth/realms/" || Text.contains path "/realms/"
      || Text.contains host "keycloak" then
    .keycloak
  else .generic

/-- The family for an address. -/
def detect (address : String) : IdpKind :=
  match Url.parse? address with
  | some u => ofHostAndPath (Text.asciiLower (u.host.getD "")) (Text.asciiLower u.path)
  | none => ofHostAndPath (Text.asciiLower address) (Text.asciiLower address)

end SignOn.IdpKind
