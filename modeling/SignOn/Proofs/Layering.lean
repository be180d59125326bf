import SignOn.Flow

/-! # Settings in layers

The elements of a sign-on form are named in layers: those of the family of the identity provider, over them the
changes of the shared section, and over these the changes of a role.

* `Selectors.under` is what comes of all layers together, element by element.
* `SelectorOverrides.merged` puts two layers into one.  It is associative, a layer without changes is its unit
  (`merged_assoc`, `empty_merged`, `merged_empty`), and `apply` lets layers act on the elements of a form
  (`apply_merged`).  So it does not matter whether layers are merged or applied one by one (`apply_foldl_merged`,
  `foldl_apply`).
* `layers_merged` adds the other settings of a role, which replace the shared ones as a whole, and what a login makes
  of the layers. -/

namespace SignOn

namespace Selectors

/-- The elements of a form under layers of changes: each one as the last layer says that says anything about it, and
otherwise as it has been. -/
def under (base : Selectors) (layers : List SelectorOverrides) : Selectors where
  username := (layers.reverse.findSome? (·.username)).getD base.username
  password := (layers.reverse.findSome? (·.password)).getD base.password
  submit := (layers.reverse.findSome? (·.submit)).getD base.submit
  next := (layers.reverse.findSome? (·.next)).or base.next

end Selectors

namespace SelectorOverrides

/-! ### Merging layers -/

theorem merged_eq (a b : SelectorOverrides) : a.merged b =
    { username := b.username.or a.username
      password := b.password.or a.password
      submit := b.submit.or a.submit
      next := b.next.or a.next } := by
  simp [merged]

@[simp] theorem empty_merged (a : SelectorOverrides) : merged {} a = a := by
  simp [merged_eq]

@[simp] theorem merged_empty (a : SelectorOverrides) : a.merged {} = a := by
  simp [merged_eq]

theorem merged_assoc (a b c : SelectorOverrides) : (a.merged b).merged c = a.merged (b.merged c) := by
  simp [merged_eq, Option.or_assoc]

@[simp] theorem merged_self (a : SelectorOverrides) : a.merged a = a := by
  simp [merged_eq]

/-! ### Applying layers -/

theorem apply_eq (a : SelectorOverrides) (base : Selectors) : a.apply base =
    { username := a.username.getD base.username
      password := a.password.getD base.password
      submit := a.submit.getD base.submit
      next := a.next.or base.next } := by
  simp [apply]

@[simp] theorem apply_empty (base : Selectors) : apply {} base = base := by
  simp [apply_eq]

theorem apply_merged (a b : SelectorOverrides) (base : Selectors) :
    (a.merged b).apply base = b.apply (a.apply base) := by
  simp [apply_eq, merged_eq, Option.or_assoc, Option.getD_or]

/-- What merged layers say about one element is what the last of them says that says anything. -/
theorem field_foldl_merged {β : Type} (field : SelectorOverrides → Option β)
    (hfield : ∀ a b, field (a.merged b) = (field b).or (field a)) (layers : List SelectorOverrides)
    (first : SelectorOverrides) :
    field (layers.foldl merged first) = (layers.reverse.findSome? field).or (field first) := by
  induction layers generalizing first with
  | nil => rfl
  | cons a layers ih =>
      rw [List.foldl_cons, ih, hfield, List.reverse_cons, List.findSome?_append, Option.or_assoc]
      cases h : field a <;> simp [h]

/-- Layers that are merged first. -/
theorem apply_foldl_merged (layers : List SelectorOverrides) (base : Selectors) :
    (layers.foldl merged {}).apply base = base.under layers := by
  rw [apply_eq, Selectors.under, field_foldl_merged (·.username) (fun a b => by rw [merged_eq]),
    field_foldl_merged (·.password) (fun a b => by rw [merged_eq]),
    field_foldl_merged (·.submit) (fun a b => by rw [merged_eq]),
    field_foldl_merged (·.next) (fun a b => by rw [merged_eq])]
  simp

/-- Merging into a layer and applying it is the same as applying one layer behind the other. -/
theorem foldl_apply_eq (layers : List SelectorOverrides) (first : SelectorOverrides) (base : Selectors) :
    layers.foldl (fun s o => o.apply s) (first.apply base) = (layers.foldl merged first).apply base := by
  induction layers generalizing first with
  | nil => rfl
  | cons a layers ih => rw [List.foldl_cons, ← apply_merged, ih, List.foldl_cons]

/-- Layers that are applied one by one. -/
theorem foldl_apply (layers : List SelectorOverrides) (base : Selectors) :
    layers.foldl (fun s o => o.apply s) base = base.under layers := by
  have h := foldl_apply_eq layers {} base
  rwa [apply_empty, apply_foldl_merged] at h

end SelectorOverrides

/-! ### The settings of a role -/

namespace OidcSettings

/-- A section under the changes of a role: what they set replaces what the section says, and all else stays; layers of
selectors are merged. -/
structure Under (base : OidcSettings) (o : OidcOverrides) (result : OidcSettings) : Prop where
  idp : result.idp = o.idp.getD base.idp
  loginUrl : result.loginUrl = o.loginUrl.getD base.loginUrl
  idpLoginUrl : result.idpLoginUrl = o.idpLoginUrl.or base.idpLoginUrl
  skipIdpRedirect : result.skipIdpRedirect = o.skipIdpRedirect.getD base.skipIdpRedirect
  selectors : result.selectors = Option.merge SelectorOverrides.merged base.selectors o.selectors
  mfa : result.mfa = o.mfa.getD base.mfa
  success : result.success = o.success.getD base.success
  timeouts : result.timeouts = o.timeouts.getD base.timeouts
  logout : result.logout = o.logout.or base.logout
  probe : result.probe = base.probe
  fieldTimeout : result.fieldTimeout = base.fieldTimeout
  settle : result.settle = base.settle

theorem Under.unique {base result result' : OidcSettings} {o : OidcOverrides} (h : base.Under o result)
    (h' : base.Under o result') : result = result' := by
  cases result
  cases result'
  simp only [OidcSettings.mk.injEq]
  exact ⟨h.idp.trans h'.idp.symm, h.loginUrl.trans h'.loginUrl.symm, h.idpLoginUrl.trans h'.idpLoginUrl.symm,
    h.skipIdpRedirect.trans h'.skipIdpRedirect.symm, h.selectors.trans h'.selectors.symm, h.mfa.trans h'.mfa.symm,
    h.success.trans h'.success.symm, h.timeouts.trans h'.timeouts.symm, h.logout.trans h'.logout.symm,
    h.probe.trans h'.probe.symm, h.fieldTimeout.trans h'.fieldTimeout.symm, h.settle.trans h'.settle.symm⟩

theorem selectors_merged (base : OidcSettings) (o : OidcOverrides) :
    (base.merged o).selectors = Option.merge SelectorOverrides.merged base.selectors o.selectors := by
  unfold merged
  cases base.selectors <;> cases o.selectors <;> rfl

theorem under_merged (base : OidcSettings) (o : OidcOverrides) : base.Under o (base.merged o) where
  idp := rfl
  loginUrl := rfl
  idpLoginUrl := Option.orElse_eq_or
  skipIdpRedirect := rfl
  selectors := selectors_merged base o
  mfa := rfl
  success := rfl
  timeouts := rfl
  logout := Option.orElse_eq_or
  probe := rfl
  fieldTimeout := rfl
  settle := rfl

theorem under_empty (base : OidcSettings) : base.Under {} base := by
  constructor <;> simp

theorem getD_getD {α : Type} (x : Option α) (a : α) : x.getD (x.getD a) = x.getD a := by
  cases x <;> rfl

theorem Under.again {base result : OidcSettings} {o : OidcOverrides} (h : base.Under o result) :
    result.Under o result where
  idp := by rw [h.idp, getD_getD]
  loginUrl := by rw [h.loginUrl, getD_getD]
  idpLoginUrl := by rw [h.idpLoginUrl, ← Option.or_assoc, Option.or_self]
  skipIdpRedirect := by rw [h.skipIdpRedirect, getD_getD]
  selectors := by
    rw [h.selectors]
    cases base.selectors <;> cases o.selectors <;> simp [SelectorOverrides.merged_assoc]
  mfa := by rw [h.mfa, getD_getD]
  success := by rw [h.success, getD_getD]
  timeouts := by rw [h.timeouts, getD_getD]
  logout := by rw [h.logout, ← Option.or_assoc, Option.or_self]
  probe := rfl
  fieldTimeout := rfl
  settle := rfl

end OidcSettings

/-- The layers of selectors for a role: that of the shared section, and over it that of the role. -/
def Settings.layers (s : Settings) (role : String) : List SelectorOverrides :=
  (s.oidc.bind (·.selectors)).toList ++
    (((s.roles.lookup role).bind (·.overrides)).bind (·.selectors)).toList

/-- What a login of a role makes of a form are the elements of the family, under the layers for the role. -/
theorem Flow.selectorsFor_of_oidcFor {f : Flow} {s : Settings} {role : String} (h : s.oidcFor role = some f.settings)
    (handler : Idp.Handler) : f.selectorsFor handler = handler.selectors.under (s.layers role) := by
  obtain ⟨base, hbase, hmerged⟩ := Option.map_eq_some_iff.mp h
  rw [Settings.layers, hbase, ← SelectorOverrides.foldl_apply, selectorsFor, ← hmerged]
  cases hown : (s.roles.lookup role).bind (·.overrides) with
  | none => cases hshared : base.selectors <;> simp [hshared]
  | some o =>
      simp only [OidcSettings.selectors_merged]
      cases hshared : base.selectors <;> cases hsel : o.selectors <;>
        simp [hshared, hsel, SelectorOverrides.apply_merged]

open SelectorOverrides (merged apply)

/-- **Settings in layers.**  Layers of selectors are a monoid under merging, and act on the elements of a form by being
applied.  So however many layers are merged first or applied one by one, each element comes out as the last layer says
that says anything about it, and otherwise as it has been.  A section stays as it is under no changes of a role, and
under the same changes a second time; else each of its settings is that of the role where the role sets it, and that of
the section where not, while layers of selectors are merged.  A login of a role fills in and submits a form by the
elements that its handler names, under the layers for the role. -/
theorem layers_merged :
    (∀ a : SelectorOverrides, merged {} a = a ∧ a.merged {} = a) ∧
    (∀ a b c : SelectorOverrides, (a.merged b).merged c = a.merged (b.merged c)) ∧
    (∀ base : Selectors, apply {} base = base) ∧
    (∀ (a b : SelectorOverrides) (base : Selectors), (a.merged b).apply base = b.apply (a.apply base)) ∧
    (∀ (layers : List SelectorOverrides) (base : Selectors),
      (layers.foldl merged {}).apply base = base.under layers ∧
        layers.foldl (fun s o => o.apply s) base = base.under layers) ∧
    (∀ base : OidcSettings, base.merged {} = base) ∧
    (∀ (base : OidcSettings) (o : OidcOverrides),
      base.Under o (base.merged o) ∧ (base.merged o).merged o = base.merged o) ∧
    ∀ (s : Settings) (role : String) (f : Flow), s.oidcFor role = some f.settings →
      ∀ (handler : Idp.Handler) (c : Credentials),
        let elements := handler.selectors.under (s.layers role)
        ∃ rest, f.steps handler role c =
          (.fillCredentials, Idp.fillCredentials (f.context role) c elements) ::
            (.submitForm, Flow.submit (f.context role) c elements) :: rest := by
  refine ⟨fun a => ⟨a.empty_merged, a.merged_empty⟩, SelectorOverrides.merged_assoc, SelectorOverrides.apply_empty,
    SelectorOverrides.apply_merged, fun layers base => ?_, fun base => ?_, fun base o => ?_, ?_⟩
  · exact ⟨SelectorOverrides.apply_foldl_merged layers base, SelectorOverrides.foldl_apply layers base⟩
  · exact (base.under_merged {}).unique base.under_empty
  · have hunder := base.under_merged o
    exact ⟨hunder, ((base.merged o).under_merged o).unique hunder.again⟩
  · intro s role f hf handler c
    rw [← Flow.selectorsFor_of_oidcFor hf handler]
    exact ⟨_, rfl⟩

/-- Settings with a shared layer of selectors and one of a role. -/
def layeredSettings : Settings where
  roles := [("admin",
    { credentials := ⟨"ADMIN_USER", "ADMIN_PASSWORD"⟩
      overrides := some { selectors := some { submit := some "#enter" } } })]
  oidc := some
    { loginUrl := "https://app.example/login"
      selectors := some { password := some "#secret", submit := some "#send" } }

def layeredFlow : Flow where
  settings :=
    { loginUrl := "https://app.example/login"
      selectors := some { password := some "#secret", submit := some "#enter" } }
  registry := {}
  logger := .standard

/-- The user name is entered where the family says, the password where the shared section says, and the form is
submitted as the role says. -/
theorem layers_merged_layeredSettings :
    layeredSettings.oidcFor "admin" = some layeredFlow.settings ∧
      ∃ rest, layeredFlow.steps Idp.Keycloak.handler "admin" default =
        (.fillCredentials, Idp.fillCredentials (layeredFlow.context "admin") default
          ⟨"#username", "#secret", "#enter", none⟩) ::
        (.submitForm, Flow.submit (layeredFlow.context "admin") default ⟨"#username", "#secret", "#enter", none⟩) ::
          rest := by
  obtain ⟨-, -, -, -, -, -, -, huses⟩ := layers_merged
  exact ⟨rfl, huses layeredSettings "admin" layeredFlow rfl Idp.Keycloak.handler default⟩

end SignOn
