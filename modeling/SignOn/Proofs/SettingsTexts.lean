import Mathlib
import SignOn.Proofs.Json.NumberTexts
import SignOn.Proofs.Json.Records

/-! # Settings that are written and read

What is written for settings is read as these settings.

* Each part of the settings has a lemma of its own: its decoder reads its written form (`Json.Reads`).  For a record it
  goes through the fields in their order, so a field that is added needs one more step there.
* Roles come in the order of their names, and so does every object among the further fields of a request; this is what
  entering them one by one gives back (`foldl_insertRole`, `reads_membersDecoder`).
* `Settings.ofText_toJson` puts the parts together, for the settings that `Settings.Portable` describes. -/

namespace SignOn

open Json (Reads reads_text reads_path reads_boolean reads_nat64 reads_nat32 reads_record)

/-! ### Names -/

theorem IdpKind.reads_name (k : IdpKind) : Reads decoder (.string k.name) k :=
  Json.reads_choice (by cases k <;> rfl)

theorem ProviderKind.reads_name (k : ProviderKind) : Reads decoder (.string k.name) k :=
  Json.reads_choice (by cases k <;> rfl)

theorem MfaKind.reads_name (k : MfaKind) : Reads decoder (.string k.name) k :=
  Json.reads_choice (by cases k <;> rfl)

/-! ### Parts of the settings -/

theorem SelectorOverrides.reads_toJson (s : SelectorOverrides) : Reads decoder s.toJson s :=
  reads_record (by decide) <|
    .nullable reads_text (fun _ => nofun) <|
    .nullable reads_text (fun _ => nofun) <|
    .nullable reads_text (fun _ => nofun) <|
    .nullable reads_text (fun _ => nofun) .nil

theorem MfaSettings.reads_toJson (m : MfaSettings) : Reads decoder m.toJson m :=
  reads_record (by decide) <|
    .defaulting m.kind.reads_name <|
    .nullable reads_text (fun _ => nofun) <|
    .nullable reads_text (fun _ => nofun) <|
    .nullable reads_text (fun _ => nofun) <|
    .nullable reads_nat64 (fun _ => nofun) .nil

theorem UrlMatch.reads_toJson (m : UrlMatch) : Reads decoder m.toJson m := by
  have hregular : m.toJson.Regular fun _ => True := by
    cases m with
    | contains fragment => trivial
    | regex pattern => exact ⟨fun _ hm => (nomatch hm), trivial, trivial⟩
  intro _ depth hdepth
  have hvalue := Json.value_draft hregular hdepth
  cases m with
  | contains fragment =>
      rw [toJson, Json.draft] at hvalue ⊢
      rw [decoder, hvalue]
  | regex pattern =>
      rw [toJson, Json.fields, Json.draft] at hvalue ⊢
      rw [decoder, hvalue]
      rfl

theorem SuccessCriteria.reads_toJson (c : SuccessCriteria) : Reads decoder c.toJson c :=
  reads_record (by decide) <|
    .nullable UrlMatch.reads_toJson (fun m => by cases m <;> nofun) <|
    .nullable reads_text (fun _ => nofun) <|
    .nullable reads_nat64 (fun _ => nofun) .nil

theorem Timeouts.reads_toJson (t : Timeouts) : Reads decoder t.toJson t :=
  reads_record (by decide) <|
    .defaulting (reads_nat64 t.loginFlow) <|
    .defaulting (reads_nat64 t.idpRedirect) <|
    .defaulting (reads_nat64 t.callback) .nil

theorem LogoutSettings.reads_toJson (l : LogoutSettings) : Reads decoder l.toJson l :=
  reads_record (by decide) <| .required (reads_text l.url) <| .defaulting (reads_boolean l.idpLogout) .nil

theorem Probe.reads_toJson (p : Probe) : Reads decoder p.toJson p :=
  reads_record (by decide) <| .required (reads_nat64 p.timeout) <| .required (reads_nat64 p.interval) .nil

theorem OidcSettings.reads_toJson (o : OidcSettings) : Reads decoder o.toJson o :=
  reads_record (by decide) <|
    .defaulting o.idp.reads_name <|
    .required (reads_text o.loginUrl) <|
    .nullable reads_text (fun _ => nofun) <|
    .defaulting (reads_boolean o.skipIdpRedirect) <|
    .nullable SelectorOverrides.reads_toJson (fun _ => nofun) <|
    .defaulting o.mfa.reads_toJson <|
    .defaulting o.success.reads_toJson <|
    .defaulting o.timeouts.reads_toJson <|
    .nullable LogoutSettings.reads_toJson (fun _ => nofun) <|
    .defaulting o.probe.reads_toJson <|
    .defaulting (reads_nat64 o.fieldTimeout) <|
    .defaulting (reads_nat64 o.settle) .nil

theorem OidcOverrides.reads_toJson (o : OidcOverrides) : Reads decoder o.toJson o :=
  reads_record (by decide) <|
    .nullable IdpKind.reads_name (fun _ => nofun) <|
    .nullable reads_text (fun _ => nofun) <|
    .nullable reads_text (fun _ => nofun) <|
    .nullable reads_boolean (fun _ => nofun) <|
    .nullable SelectorOverrides.reads_toJson (fun _ => nofun) <|
    .nullable MfaSettings.reads_toJson (fun _ => nofun) <|
    .nullable SuccessCriteria.reads_toJson (fun _ => nofun) <|
    .nullable Timeouts.reads_toJson (fun _ => nofun) <|
    .nullable LogoutSettings.reads_toJson (fun _ => nofun) .nil

theorem FormSettings.reads_toJson (f : FormSettings) : Reads decoder f.toJson f :=
  reads_record (by decide) <|
    .required (reads_text f.loginUrl) <|
    .defaulting (reads_text f.usernameSelector) <|
    .defaulting (reads_text f.passwordSelector) <|
    .defaulting (reads_text f.submitSelector) <|
    .defaulting f.success.reads_toJson <|
    .nullable reads_text (fun _ => nofun) <|
    .defaulting (reads_nat64 f.fieldTimeout) <|
    .defaulting (reads_nat64 f.navigationTimeout) <|
    .defaulting f.probe.reads_toJson .nil

/-- Any values, of members whose keys ascend. -/
theorem reads_membersDecoder {N : Number → Prop} {ms : JsonMembers} (h : ms.Regular N) :
    Reads membersDecoder (.object ms) ms := by
  have hvalues : ∀ m ∈ ms.toList, Reads Json.value (id m.2) m.2 := fun m hm _ depth hdepth =>
    Json.value_draft (h.of_mem m hm) hdepth
  have hmap := (Json.reads_mapping hvalues).map fun ms => ms.foldl (fun acc m => acc.insert m.1 m.2) JsonMembers.nil
  have hobject : Json.fields (ms.toList.map fun m => (m.1, id m.2)) = .object ms := by simp [Json.fields]
  rw [JsonMembers.foldl_insert_toList h, hobject] at hmap
  exact hmap

theorem TokenSettings.reads_toJson {N : Number → Prop} {t : TokenSettings} (h : t.extraFields.Regular N) :
    Reads decoder t.toJson t :=
  reads_record (by decide) <|
    .required (reads_text t.endpoint) <|
    .defaulting (reads_text t.usernameField) <|
    .defaulting (reads_text t.passwordField) <|
    .defaulting (reads_text t.tokenField) <|
    .defaulting (reads_membersDecoder h) <|
    .defaulting (reads_text t.headerName) <|
    .defaulting (reads_text t.headerPrefix) <|
    .defaulting (reads_text t.storageKey) <|
    .defaulting (reads_nat64 t.timeout) .nil

theorem reads_float (x : Float) : Reads Json.float (.number (.float x.toBits)) x :=
  fun _ _ _ => congrArg Except.ok (Float.ofBits_toBits x)

theorem RetryPolicy.reads_toJson {r : RetryPolicy} (h : r.maxRetries < 0x100000000) : Reads decoder r.toJson r :=
  reads_record (by decide) <|
    .defaulting (reads_nat32 h) <|
    .defaulting (reads_nat64 r.initialDelay) <|
    .defaulting (reads_float r.multiplier) <|
    .defaulting (reads_nat64 r.maxDelay) .nil

theorem StoreSettings.reads_toJson (s : StoreSettings) : Reads decoder s.toJson s :=
  reads_record (by decide) <|
    .defaulting (reads_path s.directory) <|
    .defaulting (reads_nat64 s.maxAgeMinutes) <|
    .defaulting (reads_text s.filePattern) .nil

theorem reads_loggingDecoder (mask : Bool) :
    Reads loggingDecoder (Json.fields [("maskPasswords", .bool mask)]) mask :=
  reads_record (by decide) <| .defaulting (reads_boolean mask) .nil

theorem CredentialVars.reads_fields (c : CredentialVars) :
    Reads decoder (Json.fields [("username", .string c.username), ("password", .string c.password)]) c :=
  reads_record (by decide) <| .required (reads_text c.username) <| .required (reads_text c.password) .nil

theorem RoleSettings.reads_toJson (r : RoleSettings) : Reads decoder r.toJson r :=
  reads_record (by decide) <|
    .required r.credentials.reads_fields <|
    .nullable OidcOverrides.reads_toJson (fun _ => nofun) .nil

/-! ### Roles -/

theorem insertRole_eq_append {name : String} {role : RoleSettings} : ∀ {roles : List (String × RoleSettings)},
    (∀ r ∈ roles, r.1 < name) → insertRole name role roles = roles ++ [(name, role)]
  | [], _ => rfl
  | r :: roles, h => by
    have hr := h r List.mem_cons_self
    have hroles : ∀ r ∈ roles, r.1 < name := fun r hr => h r (List.mem_cons_of_mem _ hr)
    rw [insertRole, if_neg hr.asymm, if_neg hr.ne', insertRole_eq_append hroles, List.cons_append]

/-- Roles that come in the order of their names are entered one behind the other. -/
theorem foldl_insertRole {roles : List (String × RoleSettings)} :
    ∀ {acc : List (String × RoleSettings)}, (acc ++ roles).Pairwise (·.1 < ·.1) →
      roles.foldl (fun acc m => insertRole m.1 m.2 acc) acc = acc ++ roles := by
  induction roles with
  | nil => exact fun _ => (List.append_nil _).symm
  | cons r roles ih =>
      intro acc h
      have hacc : ∀ a ∈ acc, a.1 < r.1 := fun a ha => (List.pairwise_append.mp h).2.2 a ha r List.mem_cons_self
      rw [List.foldl_cons, insertRole_eq_append hacc, ih (by simpa using h), List.append_assoc, List.singleton_append]

theorem reads_rolesDecoder {roles : List (String × RoleSettings)} (h : roles.Pairwise (·.1 < ·.1)) :
    Reads rolesDecoder (Json.fields (roles.map fun r => (r.1, r.2.toJson))) roles := by
  have hmap := (Json.reads_mapping fun r (_ : r ∈ roles) => r.2.reads_toJson).map fun ms =>
    ms.foldl (fun acc m => insertRole m.1 m.2 acc) []
  rwa [foldl_insertRole (by simpa using h)] at hmap

/-! ### The settings as a whole -/

namespace Settings

/-- Settings that pass their own check and have a text.  Their roles stand in the order of their names and further
fields of a request in the order of their keys, as in every map; those fields hold no numbers but integers.  All numbers
are as wide as their types, and the multiplier is read from its text as it is.  No part lies deeper than a text may be
nested. -/
structure Portable (s : Settings) : Prop where
  check : s.check = none
  roles : s.roles.Pairwise (·.1 < ·.1)
  extraFields : ∀ t ∈ s.token, t.extraFields.Regular Number.IsInteger
  numbers : s.toJson.NumbersIn fun n => n.IsInteger ∨ n = .float s.retry.multiplier.toBits
  maxRetries : s.retry.maxRetries < 0x100000000
  multiplier : Json.parse (Decimal.text s.retry.multiplier.toBits) = .ok (.number (.float s.retry.multiplier.toBits))
  depth : s.toJson.depth ≤ Json.maxDepth

variable {s : Settings}

theorem Portable.reads_toJson (h : s.Portable) : Reads decoder s.toJson s :=
  have htoken : Reads (Json.optional TokenSettings.decoder) (.ofOption TokenSettings.toJson s.token) s.token :=
    Json.reads_optional (fun t ht => TokenSettings.reads_toJson (h.extraFields t ht)) (fun _ => nofun)
  reads_record (by decide) <|
    .defaulting s.provider.reads_name <|
    .defaulting (reads_rolesDecoder h.roles) <|
    .nullable OidcSettings.reads_toJson (fun _ => nofun) <|
    .nullable FormSettings.reads_toJson (fun _ => nofun) <|
    .nullable_of_reads htoken <|
    .defaulting (RetryPolicy.reads_toJson h.maxRetries) <|
    .defaulting s.store.reads_toJson <|
    .defaulting (reads_loggingDecoder s.maskPasswords) .nil

theorem Portable.fits (h : s.Portable) : s.toJson.NumbersIn Number.Fits := by
  refine h.numbers.mono fun n hn => ?_
  rcases hn with hn | rfl
  · cases n with
    | int i => exact hn
    | float bits => trivial
  · trivial

theorem Portable.readsBack (h : s.Portable) : s.toJson.NumbersIn Number.ReadsBack := by
  refine h.numbers.mono fun n hn => ?_
  rcases hn with hn | rfl
  · exact hn.readsBack
  · exact Number.readsBack_of_parse (Decimal.solid_text _) h.multiplier

theorem Portable.ofText_spells (h : s.Portable) {cs : List Char} (hcs : Json.Spells s.toJson cs) :
    ofText (String.ofList cs) = .ok s := by
  have hdecode : Json.decodeReading decoder ⟨s.toJson.draft, none⟩ = .ok s :=
    Json.decodeReading_eq_ok_iff.mpr ⟨_, rfl, h.reads_toJson h.fits Json.maxDepth h.depth⟩
  rw [ofText, ofTextBy, Json.readText_spells h.readsBack hcs, ofReadingBy, hdecode]
  have hcheck : s.checkBy Pattern.compile? = none := h.check
  simp only [hcheck]

/-- **Settings come back from their text.**  Portable settings that are written, on one line or over several, are read
and checked as the same settings: whatever sections and roles there are, and whatever is absent. -/
theorem ofText_toJson (h : s.Portable) : ofText s.toJson.compact = .ok s ∧ ofText s.toJson.pretty = .ok s :=
  ⟨h.ofText_spells (Json.spells_compactChars s.toJson), h.ofText_spells (Json.spells_prettyChars 0 s.toJson)⟩

/-- Settings with all sections, of which some are empty, with both ways to recognise an address, and with the least and
the greatest integer. -/
def fullSettings : Settings where
  provider := .token
  roles :=
    [("admin", ⟨⟨"ADMIN_USER", "ADMIN_PASSWORD"⟩, none⟩),
     ("auditor \"é\"", ⟨⟨"AUDITOR_USER", "AUDITOR_PASSWORD"⟩, some {}⟩),
     ("viewer", ⟨⟨"VIEWER_USER", "VIEWER_PASSWORD"⟩, some
       { idp := some .azureAd
         loginUrl := some ""
         skipIdpRedirect := some false
         selectors := some { next := some "#next" }
         mfa := some { kind := .totp, secretVar := some "VIEWER_SECRET", pushTimeout := some 0xFFFFFFFFFFFFFFFF }
         success := some { url := some (.regex "^https://[^/]+/home$"), timeout := some 0 }
         timeouts := some { callback := 1 }
         logout := some { url := "/bye", idpLogout := true } }⟩)]
  oidc := some
    { idp := .okta
      loginUrl := "https://app.example/login"
      selectors := some {}
      success := { url := some (.contains "/home"), selector := some "#home" }
      logout := some { url := "/bye" } }
  form := some { loginUrl := "https://app.example/form", logoutUrl := some "/signout" }
  token := some
    { endpoint := "https://app.example/token"
      extraFields := .cons "limits"
        (.array (.cons (.number (.int (-0x8000000000000000))) (.cons (.number (.int 0xFFFFFFFFFFFFFFFF)) .nil)))
        (.cons "scope" (.object (.cons "" .null .nil)) .nil) }
  retry := { maxRetries := 0xFFFFFFFF, multiplier := 1.5 }
  store := { directory := "/var/sessions", filePattern := "s-\x7brole\x7d.json" }
  maskPasswords := false

theorem portable_fullSettings : fullSettings.Portable where
  check := by decide +kernel
  roles := by decide +kernel
  extraFields := by
    rintro _ ⟨⟩
    have hkeys : "limits" < "scope" := by decide
    have hleast : Number.IsInteger (.int (-0x8000000000000000)) := ⟨by decide, by decide⟩
    have hgreatest : Number.IsInteger (.int 0xFFFFFFFFFFFFFFFF) := ⟨by decide, by decide⟩
    have hscope : Json.Regular Number.IsInteger (.object (.cons "" .null .nil)) :=
      ⟨fun _ hm => (nomatch hm), trivial, trivial⟩
    refine ⟨fun m hm => ?_, ⟨hleast, hgreatest, trivial⟩, fun _ hm => (nomatch hm), hscope, trivial⟩
    rw [List.mem_singleton.mp hm]
    exact hkeys
  numbers := by
    simp [fullSettings, toJson, OidcSettings.toJson, FormSettings.toJson, TokenSettings.toJson, RetryPolicy.toJson,
      StoreSettings.toJson, RoleSettings.toJson, OidcOverrides.toJson, SelectorOverrides.toJson, MfaSettings.toJson,
      SuccessCriteria.toJson, UrlMatch.toJson, Timeouts.toJson, LogoutSettings.toJson, Probe.toJson, Json.fields,
      Json.ofOption, Json.ofNat, JsonMembers.ofList, Json.NumbersIn, JsonItems.NumbersIn, JsonMembers.NumbersIn,
      Number.IsInteger, defaultFieldTimeout]
  maxRetries := by decide
  multiplier := by decide +kernel
  depth := by decide +kernel

/-- These settings come back from their text. -/
theorem ofText_toJson_fullSettings :
    fullSettings.Portable ∧ ofText fullSettings.toJson.compact = .ok fullSettings ∧
      ofText fullSettings.toJson.pretty = .ok fullSettings :=
  ⟨portable_fullSettings, ofText_toJson portable_fullSettings⟩

end Settings

end SignOn
