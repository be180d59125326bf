import SignOn.Manager
import SignOn.Proofs.FileNames

/-! # Settings that have passed the check

Settings are checked section by section when they are read, but they are used role by role, after the changes of a
role have been laid over the shared section.

* `check_eq_none_iff` is all that the check asks for.
* `success_of_oidcFor`: what a role ends up with has been in one of the sections, or in the changes of that role.
* `built_of_ofText` is what follows: for settings that have been read, no provider fails to be built, and no pattern
  fails to be one when it is used. -/

namespace SignOn

variable {compile : Compiler}

namespace SuccessCriteria

/-- If an address is recognised by a pattern, then the text is a pattern, and addresses are tested against it. -/
def Sound (compile : Compiler) (c : SuccessCriteria) : Prop :=
  ∀ text, c.url = some (.regex text) →
    ∃ found, compile text = some found ∧ ∀ url, (UrlMatch.regex text).holdsBy compile url = found url

theorem sound_of_isUsableBy {c : SuccessCriteria} (h : c.isUsableBy compile = true) : c.Sound compile := by
  intro text hurl
  rw [isUsableBy, hurl] at h
  obtain ⟨found, hfound⟩ := Option.isSome_iff_exists.mp h
  refine ⟨found, hfound, fun url => ?_⟩
  rw [UrlMatch.holdsBy, hfound]
  rfl

end SuccessCriteria

namespace Settings

variable {s : Settings}

/-- The check asks for the section of the provider, for a place for the role, and for patterns that are ones: in the
shared sections and in the changes of each role. -/
theorem checkBy_eq_none_iff : s.checkBy compile = none ↔
    s.hasSection = true ∧ Text.contains s.store.filePattern Store.rolePlace = true ∧
      (∀ o, s.oidc = some o → o.success.isUsableBy compile = true) ∧
      (∀ r ∈ s.roles, ∀ o, r.2.overrides = some o → ∀ c, o.success = some c → c.isUsableBy compile = true) ∧
      ∀ f, s.form = some f → f.success.isUsableBy compile = true := by
  have hroles : s.rolesWithBadPattern compile = [] ↔
      ∀ r ∈ s.roles, ∀ o, r.2.overrides = some o → ∀ c, o.success = some c → c.isUsableBy compile = true := by
    rw [rolesWithBadPattern, List.map_eq_nil_iff, List.filter_eq_nil_iff]
    refine forall₂_congr fun r _ => ?_
    cases r.2.overrides with
    | none => simp
    | some o => cases hsuccess : o.success <;> simp [hsuccess]
  have hshared : (s.oidc.any fun o => !o.success.isUsableBy compile) = false ↔
      ∀ o, s.oidc = some o → o.success.isUsableBy compile = true := by
    cases s.oidc <;> simp
  have hform : (s.form.any fun f => !f.success.isUsableBy compile) = false ↔
      ∀ f, s.form = some f → f.success.isUsableBy compile = true := by
    cases s.form <;> simp
  have hplace : Store.rolePlace = "\x7brole\x7d" := rfl
  rw [← hroles, ← hshared, ← hform, checkBy, hplace]
  cases s.hasSection <;> cases Text.contains s.store.filePattern "\x7brole\x7d" <;>
    cases s.oidc.any (fun o => !o.success.isUsableBy compile) <;> cases s.rolesWithBadPattern compile <;>
      cases s.form.any (fun f => !f.success.isUsableBy compile) <;> simp

/-- How the page behind a login is recognised for a role is said in the shared section, or in the changes of the
role. -/
theorem success_of_oidcFor {role : String} {o : OidcSettings} (h : s.oidcFor role = some o) :
    ∃ base, s.oidc = some base ∧ (o.success = base.success ∨
      ∃ r, (role, r) ∈ s.roles ∧ ∃ changes, r.overrides = some changes ∧ changes.success = some o.success) := by
  obtain ⟨base, hbase, rfl⟩ := Option.map_eq_some_iff.mp h
  refine ⟨base, hbase, ?_⟩
  cases hchanges : (s.roles.lookup role).bind RoleSettings.overrides with
  | none => exact .inl rfl
  | some changes =>
      obtain ⟨r, hr, hchanges⟩ := Option.bind_eq_some_iff.mp hchanges
      cases hsuccess : changes.success with
      | none => exact .inl (by simp [OidcSettings.merged, hsuccess])
      | some c =>
          refine .inr ⟨r, ?_, changes, hchanges, by simp [OidcSettings.merged, hsuccess]⟩
          obtain ⟨init, rest, hroles, -⟩ := List.lookup_eq_some_iff.mp hr
          simp [hroles]

theorem isUsableBy_of_oidcFor (hcheck : s.checkBy compile = none) {role : String} {o : OidcSettings}
    (h : s.oidcFor role = some o) : o.success.isUsableBy compile = true := by
  obtain ⟨-, -, hshared, hroles, -⟩ := checkBy_eq_none_iff.mp hcheck
  obtain ⟨base, hbase, hsame | ⟨r, hr, changes, hchanges, hsuccess⟩⟩ := success_of_oidcFor h
  · rw [hsame]
    exact hshared base hbase
  · exact hroles _ hr changes hchanges _ hsuccess

theorem checkBy_of_ofTextBy {text : String} (h : ofTextBy compile text = .ok s) : s.checkBy compile = none := by
  unfold ofTextBy ofReadingBy at h
  split at h
  · cases h
  · split at h
    · cases h
    · next hcheck => exact Except.ok.inj h ▸ hcheck

end Settings

namespace Provider

open Settings (checkBy_eq_none_iff isUsableBy_of_oidcFor)

variable {s : Settings} (role : String) (registry : Idp.Registry) (logger : Logger)

theorem ofSettings_oidc (hcheck : s.checkBy compile = none) (hkind : s.provider = .oidc) :
    ∃ o, s.oidcFor role = some o ∧ o.success.Sound compile ∧
      ofSettings s role registry logger = .ok (oidc o role s.retry registry (logger.child "oidc")) := by
  have hsection := (checkBy_eq_none_iff.mp hcheck).1
  rw [Settings.hasSection, hkind] at hsection
  obtain ⟨base, hbase⟩ := Option.isSome_iff_exists.mp hsection
  obtain ⟨o, ho⟩ : ∃ o, s.oidcFor role = some o := ⟨_, by rw [Settings.oidcFor, hbase]; rfl⟩
  refine ⟨o, ho, SuccessCriteria.sound_of_isUsableBy (isUsableBy_of_oidcFor hcheck ho), ?_⟩
  simp only [ofSettings, hkind, ho]

theorem ofSettings_form (hcheck : s.checkBy compile = none) (hkind : s.provider = .form) :
    ∃ f, s.form = some f ∧ f.success.Sound compile ∧
      ofSettings s role registry logger = .ok (form f role s.retry (logger.child "form")) := by
  obtain ⟨hsection, -, -, -, hform⟩ := checkBy_eq_none_iff.mp hcheck
  rw [Settings.hasSection, hkind] at hsection
  obtain ⟨f, hf⟩ := Option.isSome_iff_exists.mp hsection
  refine ⟨f, hf, SuccessCriteria.sound_of_isUsableBy (hform f hf), ?_⟩
  simp only [ofSettings, hkind, hf]

theorem ofSettings_token (hcheck : s.checkBy compile = none) (hkind : s.provider = .token) :
    ∃ t, s.token = some t ∧
      ofSettings s role registry logger = .ok (token t role s.retry (logger.child "token")) := by
  have hsection := (checkBy_eq_none_iff.mp hcheck).1
  rw [Settings.hasSection, hkind] at hsection
  obtain ⟨t, ht⟩ := Option.isSome_iff_exists.mp hsection
  exact ⟨t, ht, by simp only [ofSettings, hkind, ht]⟩

theorem ofSettings_custom (hkind : s.provider = .custom) :
    ofSettings s role registry logger = .error (.notRegistered role) := by
  simp only [ofSettings, hkind]

/-- Settings that have passed the check fail to build a provider only for the kind that has to be supplied. -/
theorem exists_ofSettings_iff (hcheck : s.checkBy compile = none) :
    (∃ p, ofSettings s role registry logger = .ok p) ↔ s.provider ≠ .custom := by
  cases hkind : s.provider with
  | oidc =>
      obtain ⟨o, -, -, hbuilt⟩ := ofSettings_oidc role registry logger hcheck hkind
      exact iff_of_true ⟨_, hbuilt⟩ nofun
  | form =>
      obtain ⟨f, -, -, hbuilt⟩ := ofSettings_form role registry logger hcheck hkind
      exact iff_of_true ⟨_, hbuilt⟩ nofun
  | token =>
      obtain ⟨t, -, hbuilt⟩ := ofSettings_token role registry logger hcheck hkind
      exact iff_of_true ⟨_, hbuilt⟩ nofun
  | custom =>
      rw [ofSettings_custom role registry logger hkind]
      simp

end Provider

/-- A manager whose settings have passed the check has a provider for every role, unless providers have to be supplied
and none has been supplied for the role. -/
theorem Manager.exists_provider_iff {m : Manager} (hcheck : m.settings.checkBy compile = none) (role : String) :
    (∃ p, m.provider role = .ok p) ↔ (m.settings.provider = .custom → ∃ p ∈ m.providers, p.role = role) := by
  unfold Manager.provider
  cases hfind : m.providers.find? (·.role = role) with
  | some p =>
      have hrole : p.role = role := by simpa using List.find?_some hfind
      exact iff_of_true ⟨p, rfl⟩ fun _ => ⟨p, List.mem_of_find?_eq_some hfind, hrole⟩
  | none =>
      have hnone : ¬ ∃ p ∈ m.providers, p.role = role := by
        simpa using List.find?_eq_none.mp hfind
      dsimp only
      rw [Provider.exists_ofSettings_iff role _ _ hcheck]
      simp [hnone]

/-- **Settings that have been read can be used**, whichever texts are patterns.  For every role, configured or not, a
manager has a provider, unless the settings leave it to the application to supply one and there is none for the role;
the failure then says so.  A provider that the settings build goes by the criteria that count for the role, and if
these hold a pattern it is one.  The file pattern has a place for the role. -/
theorem Settings.built_of_ofText (compile : Compiler) {text : String} {s : Settings}
    (h : Settings.ofTextBy compile text = .ok s) (role : String) :
    (∀ m : Manager, m.settings = s →
      ((∃ p, m.provider role = .ok p) ↔ (s.provider = .custom → ∃ p ∈ m.providers, p.role = role)) ∧
      (s.provider = .custom → (∀ p ∈ m.providers, p.role ≠ role) →
        m.provider role = .error (.notRegistered role)) ∧
      Text.contains m.store.settings.filePattern Store.rolePlace = true) ∧
    ∀ (registry : Idp.Registry) (logger : Logger),
      (s.provider = .oidc → ∃ o, s.oidcFor role = some o ∧ o.success.Sound compile ∧
        Provider.ofSettings s role registry logger =
          .ok (Provider.oidc o role s.retry registry (logger.child "oidc"))) ∧
      (s.provider = .form → ∃ f, s.form = some f ∧ f.success.Sound compile ∧
        Provider.ofSettings s role registry logger = .ok (Provider.form f role s.retry (logger.child "form"))) ∧
      (s.provider = .token → ∃ t, s.token = some t ∧
        Provider.ofSettings s role registry logger = .ok (Provider.token t role s.retry (logger.child "token"))) ∧
      (s.provider = .custom → Provider.ofSettings s role registry logger = .error (.notRegistered role)) := by
  have hcheck := checkBy_of_ofTextBy h
  refine ⟨?_, fun registry logger => ?_⟩
  · rintro m rfl
    refine ⟨Manager.exists_provider_iff hcheck role, fun hkind hnone => ?_, Store.contains_of_checkBy hcheck⟩
    have hfind : m.providers.find? (·.role = role) = none := by
      simpa [List.find?_eq_none] using hnone
    rw [Manager.provider, hfind]
    exact Provider.ofSettings_custom role _ _ hkind
  · exact ⟨Provider.ofSettings_oidc role registry logger hcheck, Provider.ofSettings_form role registry logger hcheck,
      Provider.ofSettings_token role registry logger hcheck, Provider.ofSettings_custom role registry logger⟩

/-- Settings in which one role changes how the page behind the login is recognised. -/
def portalText : String :=
  "\x7b\"roles\":\x7b\"admin\":\x7b\"credentialsEnv\":\x7b\"username\":\"U\",\"password\":\"P\"\x7d,"
    ++ "\"oidcOverrides\":\x7b\"success\":\x7b\"url\":\x7b\"regex\":\"^/[a-z]+$\"\x7d\x7d\x7d\x7d\x7d,"
    ++ "\"oidc\":\x7b\"loginUrl\":\"https://app/login\",\"success\":\x7b\"url\":\"/home\"\x7d\x7d\x7d"

/-- That role goes by its pattern, and a role that is not configured by the fragment of the shared section. -/
theorem Settings.built_of_ofText_portal :
    ∃ s, Settings.ofText portalText = .ok s ∧
      (∃ o p, s.oidcFor "admin" = some o ∧ o.success.url = some (.regex "^/[a-z]+$") ∧
        Pattern.parse? "^/[a-z]+$" = some p ∧ ∀ url, (UrlMatch.regex "^/[a-z]+$").holds url = p.found url) ∧
      (∀ registry logger, ∃ o, o.success.url = some (.contains "/home") ∧
        Provider.ofSettings s "guest" registry logger =
          .ok (Provider.oidc o "guest" s.retry registry (logger.child "oidc"))) ∧
      ∀ providers, ∃ p, (Manager.mk s none {} providers "session").provider "guest" = .ok p := by
  have hread : (Settings.ofText portalText).toOption.any (fun s => s.provider = .oidc ∧
      (s.oidcFor "admin").bind (·.success.url) = some (.regex "^/[a-z]+$") ∧
      (s.oidcFor "guest").bind (·.success.url) = some (.contains "/home")) = true := by decide +kernel
  cases hs : Settings.ofText portalText with
  | error e =>
      rw [hs] at hread
      cases hread
  | ok s =>
      rw [hs] at hread
      obtain ⟨hkind, hadmin, hguest⟩ := of_decide_eq_true hread
      refine ⟨s, rfl, ?_, fun registry logger => ?_, fun providers => ?_⟩
      · obtain ⟨-, hbuilt⟩ := Settings.built_of_ofText Pattern.compile? hs "admin"
        obtain ⟨o, ho, hsound, -⟩ := (hbuilt {} .standard).1 hkind
        rw [ho] at hadmin
        obtain ⟨_, hcompile, hfound⟩ := hsound _ hadmin
        obtain ⟨p, hp, rfl⟩ := Option.map_eq_some_iff.mp hcompile
        exact ⟨o, p, ho, hadmin, hp, hfound⟩
      · obtain ⟨-, hbuilt⟩ := Settings.built_of_ofText Pattern.compile? hs "guest"
        obtain ⟨o, ho, -, hprovider⟩ := (hbuilt registry logger).1 hkind
        rw [ho] at hguest
        exact ⟨o, hguest, hprovider⟩
      · obtain ⟨hprovider, -⟩ :=
          (Settings.built_of_ofText Pattern.compile? hs "guest").1 (Manager.mk s none {} providers "session") rfl
        exact hprovider.mpr fun hcustom => nomatch hkind.symm.trans hcustom

end SignOn
