import SignOn.Proofs.FlowFailures
import SignOn.Proofs.Retries
import SignOn.Provider.Build

/-! # Failures that do not pass

Some failures of a login will be there at the next attempt as well: the banner of the identity
provider, a missing element, a second factor that is not supported or has no secret, an action that
the user has to take (`Idp.Cause.IsLasting`).

* **Wording.**  Whether a login is tried again depends on the wording of its failure alone.  What the
  wording quotes from outside stands between characters that no marker of a passing failure has, so
  exactly the markers in the quoted text count (`isRetryable_quoted`, `isRetryable_of_isLasting`,
  `isRetryable_withIdpResponse`).
* **Logins.**  `PageLogin` are the logins on a page, at an identity provider or through a form, and
  `PageLogin.FailsBy` says what has made one of their attempts fail.
* `lasting_failure_last`: an attempt that fails so is the last one of its series if the text that its
  failure quotes has no marker.  With a marker in it the failure passes for one that passes
  (`retried_despite_banner`). -/

namespace SignOn

/-! ### Wording -/

namespace Text

theorem isSome_dropPrefix?_append_cons {word : List Char} {c : Char} (hc : c ∉ word) (s t : List Char) :
    (dropPrefix? word (s ++ c :: t)).isSome = (dropPrefix? word s).isSome := by
  induction word generalizing s with
  | nil => rfl
  | cons a word ih =>
      rw [List.mem_cons, not_or] at hc
      cases s with
      | nil => rw [List.nil_append, dropPrefix?, dropPrefix?, if_neg (Ne.symm hc.1)]
      | cons d s =>
          rw [List.cons_append, dropPrefix?, dropPrefix?]
          by_cases had : a = d
          · rw [if_pos had, if_pos had]
            exact ih hc.2 s
          · rw [if_neg had, if_neg had]

theorem occursIn_append_cons {word : List Char} {c : Char} (hc : c ∉ word) (s t : List Char) :
    occursIn word (s ++ c :: t) = (occursIn word s || occursIn word t) := by
  induction s with
  | nil =>
      have hbegin := isSome_dropPrefix?_append_cons hc [] t
      rw [List.nil_append] at hbegin ⊢
      have hempty : (dropPrefix? word []).isSome = occursIn word [] := by
        cases word <;> rfl
      rw [← hempty, ← hbegin]
      rfl
  | cons d s ih =>
      have hbegin := isSome_dropPrefix?_append_cons hc (d :: s) t
      rw [List.cons_append] at hbegin ⊢
      calc occursIn word (d :: (s ++ c :: t))
          = ((dropPrefix? word (d :: (s ++ c :: t))).isSome || occursIn word (s ++ c :: t)) := rfl
        _ = ((dropPrefix? word (d :: s)).isSome || (occursIn word s || occursIn word t)) := by
            rw [hbegin, ih]
        _ = (occursIn word (d :: s) || occursIn word t) := (Bool.or_assoc _ _ _).symm

end Text

/-- No marker of a passing failure has the character, and lower case leaves it as it is. -/
def Separates (c : Char) : Prop :=
  (∀ word ∈ retryableMarkers, c ∉ word.toList) ∧ Text.asciiLowerChar c = [c]

theorem separates_space : Separates ' ' := ⟨by decide, by decide⟩

theorem separates_quote : Separates '\'' := ⟨by decide, by decide⟩

theorem isRetryable_append_cons {c : Char} (hc : Separates c) {message s t : String}
    (h : message.toList = s.toList ++ c :: t.toList) :
    isRetryable message = (isRetryable s || isRetryable t) := by
  have hlower : (Text.asciiLower message).toList =
      (Text.asciiLower s).toList ++ c :: (Text.asciiLower t).toList := by
    rw [Text.toList_asciiLower, Text.toList_asciiLower, Text.toList_asciiLower, h, List.flatMap_append,
      List.flatMap_cons, hc.2]
    rfl
  have hword : ∀ word ∈ retryableMarkers, Text.contains (Text.asciiLower message) word =
      (Text.contains (Text.asciiLower s) word || Text.contains (Text.asciiLower t) word) := by
    intro word hword
    unfold Text.contains
    rw [hlower]
    exact Text.occursIn_append_cons (hc.1 word hword) _ _
  unfold isRetryable
  rw [Bool.eq_iff_iff, Bool.or_eq_true, List.any_eq_true, List.any_eq_true, List.any_eq_true]
  constructor
  · rintro ⟨word, hmem, hfound⟩
    rw [hword word hmem, Bool.or_eq_true] at hfound
    rcases hfound with hfound | hfound
    · exact .inl ⟨word, hmem, hfound⟩
    · exact .inr ⟨word, hmem, hfound⟩
  · rintro (⟨word, hmem, hfound⟩ | ⟨word, hmem, hfound⟩)
    · exact ⟨word, hmem, by rw [hword word hmem, hfound, Bool.true_or]⟩
    · exact ⟨word, hmem, by rw [hword word hmem, hfound, Bool.or_true]⟩

/-- A text that is quoted at the end, behind words without a marker. -/
theorem isRetryable_quoted {c : Char} (hc : Separates c) {opening : String} (front : String)
    (hopening : opening.toList = front.toList ++ [c]) (hfront : isRetryable front = false) (s : String) :
    isRetryable (opening ++ s) = isRetryable s := by
  have hsplit : (opening ++ s).toList = front.toList ++ c :: s.toList := by
    rw [String.toList_append, hopening, List.append_assoc]
    rfl
  rw [isRetryable_append_cons hc hsplit, hfront, Bool.false_or]

theorem isRetryable_quoted_within {c : Char} (hc : Separates c) {opening closing : String}
    (front back : String) (hopening : opening.toList = front.toList ++ [c])
    (hclosing : closing.toList = c :: back.toList)
    (hfront : isRetryable front = false) (hback : isRetryable back = false) (s : String) :
    isRetryable (opening ++ s ++ closing) = isRetryable s := by
  have hsplit : (opening ++ s ++ closing).toList = (opening ++ s).toList ++ c :: back.toList := by
    rw [String.toList_append, hclosing]
  rw [isRetryable_append_cons hc hsplit, isRetryable_quoted hc front hopening hfront, hback, Bool.or_false]

/-! ### Causes -/

theorem isRetryable_empty : isRetryable "" = false := by decide

theorem PageError.isRetryable_selector (s : String) :
    isRetryable (PageError.selector s).message = isRetryable s :=
  isRetryable_quoted separates_space "selector not found:" (by decide) (by decide) s

theorem MfaError.isRetryable_secretMissing (envVar : String) :
    isRetryable (MfaError.secretMissing envVar).message = isRetryable envVar :=
  isRetryable_quoted_within separates_space "TOTP secret environment variable" "is not set"
    (by decide) (by decide) (by decide) (by decide) envVar

theorem MfaError.isRetryable_invalidSecret (reason : String) :
    isRetryable (MfaError.invalidSecret reason).message = isRetryable reason :=
  isRetryable_quoted separates_space "invalid TOTP secret:" (by decide) (by decide) reason

namespace Idp

variable (ctx : Context)

theorem Keycloak.isRetryable_actionRequired (title : String) :
    (actionRequired ctx title).isRetryable = SignOn.isRetryable title :=
  isRetryable_quoted_within separates_quote "Keycloak requires action " " which cannot be completed headlessly"
    (by decide) (by decide) (by decide) (by decide) title

/-- Neither the kinds of second factors nor the families have a marker in their names. -/
theorem isRetryable_unsupportedMfa (kind : IdpKind) (mfa : MfaKind) :
    (unsupportedMfa ctx kind mfa).isRetryable = false := by
  have hmfa : SignOn.isRetryable mfa.name = false := by
    cases mfa <;> decide
  have hkind : SignOn.isRetryable kind.name = false := by
    cases kind <;> decide
  have hfront : SignOn.isRetryable ("MFA type '" ++ mfa.name ++ "' is not supported for") =
      SignOn.isRetryable mfa.name :=
    isRetryable_quoted_within separates_quote "MFA type " " is not supported for"
      (by decide) (by decide) (by decide) (by decide) mfa.name
  have hopening : ("MFA type '" ++ mfa.name ++ "' is not supported for ").toList =
      ("MFA type '" ++ mfa.name ++ "' is not supported for").toList ++ [' '] := by
    have hclosing : "' is not supported for ".toList = "' is not supported for".toList ++ [' '] := rfl
    simp only [String.toList_append, List.append_assoc, hclosing]
  have hmessage := isRetryable_quoted separates_space _ hopening (hfront.trans hmfa) kind.name
  exact hmessage.trans hkind

theorem isRetryable_secretUnnamed : (Flow.secretUnnamed ctx.role).isRetryable = false := by
  have hmessage : SignOn.isRetryable "mfa.totpSecretEnv is not configured" = false := by decide
  exact hmessage

theorem isRetryable_noSecret : (noSecret ctx).isRetryable = false := by
  have hmessage : SignOn.isRetryable "TOTP MFA is configured but no secret was resolved" = false := by
    decide
  exact hmessage

end Idp

namespace Idp.Cause

/-- What has made the login fail will be there at the next attempt as well. -/
def IsLasting : Cause → Prop
  | .page (.selector _) | .secretUnnamed | .noSecret | .unsupported .. | .actionRequired _ => True
  | .oneTimeCode (.secretMissing _) | .oneTimeCode (.invalidSecret _) => True
  | _ => False

/-- The text from outside that the wording of a lasting failure quotes. -/
def quoted : Cause → String
  | .page (.selector s) => s
  | .oneTimeCode (.secretMissing envVar) => envVar
  | .oneTimeCode (.invalidSecret reason) => reason
  | .actionRequired title => title
  | _ => ""

variable {ctx : Context} {phase : AuthPhase}

/-- The wording of a lasting failure has the markers of the text that it quotes, and no others. -/
theorem isRetryable_of_isLasting {cause : Cause} (h : cause.IsLasting) :
    (cause.failure ctx phase).isRetryable = SignOn.isRetryable cause.quoted := by
  cases cause with
  | page e =>
      cases e with
      | selector s => exact PageError.isRetryable_selector s
      | _ => exact h.elim
  | oneTimeCode e =>
      cases e with
      | secretMissing envVar => exact MfaError.isRetryable_secretMissing envVar
      | invalidSecret reason => exact MfaError.isRetryable_invalidSecret reason
      | clock reason => exact h.elim
  | actionRequired title => exact Keycloak.isRetryable_actionRequired ctx title
  | unsupported kind mfa => exact (isRetryable_unsupportedMfa ctx kind mfa).trans isRetryable_empty.symm
  | secretUnnamed => exact (isRetryable_secretUnnamed ctx).trans isRetryable_empty.symm
  | noSecret => exact (isRetryable_noSecret ctx).trans isRetryable_empty.symm
  | deadline limit => exact h.elim
  | pushTimeout timeout => exact h.elim

end Idp.Cause

namespace AuthError

/-- A failure as it is reported: the banner on the page, if there is one, takes the place of its wording. -/
def reported (e : AuthError) : (banner : Option String) → AuthError
  | some text => e.withIdpResponse text
  | none => e

/-- The wording of a banner has the markers of its text, and no others. -/
theorem isRetryable_withIdpResponse (e : AuthError) (text : String) :
    (e.withIdpResponse text).isRetryable = SignOn.isRetryable text :=
  isRetryable_quoted separates_space "identity provider reported:" (by decide) (by decide) text

end AuthError

/-! ### Attempts that fail -/

section

variable {σ : Type} {b : PageBehaviour σ} {role : String} {c : Credentials} {w : World σ}

namespace Flow

variable {f : Flow}

theorem run_execute_of_failsBy {last : Entry σ} {cause : Idp.Cause}
    (hlast : (f.entered b role c w).getLast? = some last)
    (h : last.FailsBy (f.context role) (f.deadline w) cause) :
    ((f.execute role c).run.run b w).1 =
      .error ((cause.failure (f.context role) last.step.phase).reported
        (Page.detectError.run b (f.taken b role c w).2).1) := by
  rw [run_execute]
  rcases f.run_entered b role c w with
    ⟨hdone, -, -⟩ | ⟨init, e, failure, hentered, -, -, hfails, herror⟩
  · have hresult : last.result = some (.ok ()) := hdone last (List.mem_of_getLast? hlast)
    rcases h with h | ⟨h, -⟩ <;> cases h.symm.trans hresult
  · rw [hentered, List.getLast?_concat] at hlast
    obtain rfl := Option.some.inj hlast
    rw [herror, h.eq hfails, run_conclude_error b role f w.now e.step cause.idpResponse_failure]
    cases (Page.detectError.run b (f.taken b role c w).2).1 <;> rfl

theorem exists_failsBy_of_execute (hf : ∀ h ∈ f.registry.handlers, h.BuiltIn) {e : AuthError}
    (h : ((f.execute role c).run.run b w).1 = .error e) :
    ∃ last cause, (f.entered b role c w).getLast? = some last ∧
      last.FailsBy (f.context role) (f.deadline w) cause := by
  rw [run_execute] at h
  rcases f.run_entered b role c w with ⟨-, -, hok⟩ | ⟨init, last, failure, hentered, -, -, hfails, -⟩
  · obtain ⟨s, hs⟩ := (f.obeys_conclude_ok role w.now (f.taken b role c w).1.1).run b (f.taken b role c w).2
    rw [← hok] at hs
    cases hs.symm.trans h
  · have hmem : last ∈ f.entered b role c w := hentered ▸ List.mem_append_right init List.mem_cons_self
    obtain ⟨-, -, cause, hcause⟩ := exists_failsBy hf hmem hfails
    exact ⟨last, cause, by rw [hentered, List.getLast?_concat], hcause⟩

end Flow

namespace Provider

variable {s : FormSettings}

theorem obeys_formLogin : (formLogin s role c).Obeys (fun _ => True)
    fun e => ∃ phase err, e = .ofPage role phase err := by
  have hpage : ∀ phase call, (Attempt.page role phase call).Obeys (fun _ => True)
      fun e => ∃ phase err, e = .ofPage role phase err := fun phase _ =>
    Attempt.obeys_page trivial fun err => ⟨phase, err, rfl⟩
  unfold formLogin
  refine (hpage _ _).bind fun _ => ?_
  refine (hpage _ _).bind fun _ => ?_
  refine (hpage _ _).bind fun _ => ?_
  refine (hpage _ _).bind fun _ => ?_
  refine (hpage _ _).bind fun _ => ?_
  refine Attempt.obeys_of_bind ((Page.waitForSuccess _ _).obeys_true) fun r => ?_
  cases r with
  | ok _ => exact Attempt.obeys_pure _
  | error err => exact Attempt.obeys_throw ⟨.callback, err, rfl⟩

/-- An attempt is the login through the form, and a look for a banner if that fails. -/
theorem run_formAttempt : ((formAttempt s role c).run.run b w).1 =
    match ((formLogin s role c).run.run b w).1 with
    | .ok _ => .ok ((SignedOn.since w.now).run b ((formLogin s role c).run.run b w).2).1
    | .error e => .error ((withBanner e).run b ((formLogin s role c).run.run b w).2).1 := by
  rw [formAttempt, ExceptT.run_mk, Plan.bind_eq, Plan.run_bind, Plan.bind_eq]
  change (Plan.run b ((formLogin s role c).run.bind _) w).1 = _
  rw [Plan.run_bind]
  cases ((formLogin s role c).run.run b w).1 with
  | ok u =>
      dsimp only
      rw [Plan.bind_eq, Plan.run_bind]
      rfl
  | error e =>
      dsimp only
      rw [Plan.bind_eq, Plan.run_bind]
      rfl

theorem run_formAttempt_error {e : AuthError} (h : ((formLogin s role c).run.run b w).1 = .error e)
    (he : e.idpResponse = none) :
    ((formAttempt s role c).run.run b w).1 =
      .error (e.reported (Page.detectError.run b ((formLogin s role c).run.run b w).2).1) := by
  rw [run_formAttempt, h]
  dsimp only
  rw [Flow.run_withBanner b he]
  cases (Page.detectError.run b ((formLogin s role c).run.run b w).2).1 <;> rfl

end Provider

end

/-! ### Logins on a page -/

/-- A login on a page: at an identity provider, or through a form. -/
inductive PageLogin where
  | oidc (s : OidcSettings) (registry : Idp.Registry)
  | form (s : FormSettings)

namespace PageLogin

/-- The login goes through no other handlers than the built-in ones. -/
def BuiltIn : PageLogin → Prop
  | oidc _ registry => ∀ h ∈ registry.handlers, h.BuiltIn
  | form _ => True

section

variable (l : PageLogin) (role : String) (logger : Logger) (c : Credentials)

/-- The line of the log with which an attempt at an identity provider begins. -/
def announce (k : Nat) : Plan Unit :=
  logger.debug ("OIDC login attempt " ++ toString (k + 1) ++ " for role '" ++ role ++ "'")

/-- The steps of an attempt at an identity provider. -/
def flow (s : OidcSettings) (registry : Idp.Registry) : Flow where
  settings := s
  registry := registry
  logger := logger.child "flow"

/-- Attempt number `k` of a login. -/
def attempt (k : Nat) : Attempt SignedOn :=
  match l with
  | oidc s registry => do
    Attempt.of (announce role logger k)
    (flow logger s registry).execute role c
  | form s => Provider.formAttempt s role c

/-- The attempts of a login under a policy. -/
def series (retry : RetryPolicy) : Series SignedOn where
  policy := retry
  role := role
  logger := logger
  attempt := l.attempt role logger c

def provider (retry : RetryPolicy) : Provider :=
  match l with
  | oidc s registry => .oidc s role retry registry logger
  | form s => .form s role retry logger

theorem login_provider (retry : RetryPolicy) :
    (l.provider role logger retry).login c = withRetry retry role logger (l.attempt role logger c) := by
  cases l <;> rfl

/-- The cause has made attempt number `k` fail, which starts in the world: at an identity provider it has made
the step fail that was entered last. -/
def FailsBy {σ : Type} (b : PageBehaviour σ) (k : Nat) (w : World σ) (cause : Idp.Cause) : Prop :=
  match l with
  | oidc s registry =>
    let f := flow logger s registry
    let v := ((announce role logger k).run b w).2
    ∃ last, (f.entered b role c v).getLast? = some last ∧ last.FailsBy (f.context role) (f.deadline v) cause
  | form s =>
    ∃ phase err, cause = .page err ∧
      ((Provider.formLogin s role c).run.run b w).1 = .error (.ofPage role phase err)

end

section

variable {σ : Type} {l : PageLogin} {role : String} {logger : Logger} {c : Credentials} {b : PageBehaviour σ}
  {k : Nat} {w : World σ} {e : AuthError}

theorem run_attempt_oidc (s : OidcSettings) (registry : Idp.Registry) :
    ((oidc s registry).attempt role logger c k).run.run b w =
      ((flow logger s registry).execute role c).run.run b ((announce role logger k).run b w).2 := by
  unfold attempt
  rw [Attempt.run_of_bind, Plan.run_bind]

/-- What an attempt reports is the failure of its cause, with the banner on the page in its place. -/
theorem run_attempt_of_failsBy {cause : Idp.Cause} (h : l.FailsBy role logger c b k w cause) :
    ∃ ctx phase banner, ((l.attempt role logger c k).run.run b w).1 =
      .error ((cause.failure ctx phase).reported banner) := by
  cases l with
  | oidc s registry =>
      obtain ⟨last, hlast, hfails⟩ := h
      rw [run_attempt_oidc]
      exact ⟨_, _, _, Flow.run_execute_of_failsBy hlast hfails⟩
  | form s =>
      obtain ⟨phase, err, rfl, herror⟩ := h
      exact ⟨{ (default : Idp.Context) with role }, phase, _, Provider.run_formAttempt_error herror rfl⟩

theorem exists_failsBy (hl : l.BuiltIn) (h : ((l.attempt role logger c k).run.run b w).1 = .error e) :
    ∃ cause, l.FailsBy role logger c b k w cause := by
  cases l with
  | oidc s registry =>
      rw [run_attempt_oidc] at h
      obtain ⟨last, cause, hlast, hcause⟩ :=
        Flow.exists_failsBy_of_execute (f := flow logger s registry) hl h
      exact ⟨cause, last, hlast, hcause⟩
  | form s =>
      cases hlogin : ((Provider.formLogin s role c).run.run b w).1 with
      | ok u =>
          rw [attempt, Provider.run_formAttempt, hlogin] at h
          cases h
      | error e' =>
          obtain ⟨phase, err, rfl⟩ := Provider.obeys_formLogin.run b w e' hlogin
          exact ⟨.page err, phase, err, rfl, hlogin⟩

variable (l role logger c b k w e) in
/-- The failure of an attempt is a lasting one, and quotes the text: that of a banner, or without a banner
that of a lasting cause. -/
def Quotes (text : String) : Prop :=
  e.idpResponse = some text ∨
    e.idpResponse = none ∧
      ∃ cause, l.FailsBy role logger c b k w cause ∧ cause.IsLasting ∧ cause.quoted = text

theorem isRetryable_of_quotes (hl : l.BuiltIn) {text : String} (h : l.Quotes role logger c b k w e text)
    (he : ((l.attempt role logger c k).run.run b w).1 = .error e) :
    e.isRetryable = SignOn.isRetryable text := by
  rcases h with htext | ⟨hnone, cause, hcause, hlasting, rfl⟩
  · obtain ⟨cause, hcause⟩ := exists_failsBy hl he
    obtain ⟨ctx, phase, banner, hrun⟩ := run_attempt_of_failsBy hcause
    obtain rfl := Except.error.inj (he.symm.trans hrun)
    cases banner with
    | some shown =>
        obtain rfl : shown = text := Option.some.inj htext
        exact AuthError.isRetryable_withIdpResponse _ _
    | none => cases cause.idpResponse_failure.symm.trans htext
  · obtain ⟨ctx, phase, banner, hrun⟩ := run_attempt_of_failsBy hcause
    obtain rfl := Except.error.inj (he.symm.trans hrun)
    cases banner with
    | some shown => cases hnone
    | none => exact Idp.Cause.isRetryable_of_isLasting hlasting

/-- **Failures that do not pass.**  An attempt that fails by a banner, a missing element, a second factor that
is not supported or has no usable secret, or an action that the user has to take is the last one of its
series, and its failure is what the login reports, if the text that it quotes has no marker of a passing
failure.  If the text has one, the attempt is the last one only where the policy allows no more. -/
theorem lasting_failure_last (hl : l.BuiltIn) {retry : RetryPolicy}
    (hk : k ≤ (l.series role logger c retry).last b w)
    (he : (l.series role logger c retry).outcome b w k = .error e) {text : String}
    (h : l.Quotes role logger c b k ((l.series role logger c retry).start b w k) e text) :
    (isRetryable text = false →
        k = (l.series role logger c retry).last b w ∧
          (((l.provider role logger retry).login c).run.run b w).1 = .error (e.withDefaultRemediation role)) ∧
      (isRetryable text = true →
        (k = (l.series role logger c retry).last b w ↔ k + 1 = retry.maxAttempts)) := by
  have hretry : e.isRetryable = SignOn.isRetryable text := isRetryable_of_quotes hl h he
  have hlt := Series.lt_last_iff (l.series role logger c retry) b w hk
  rw [he, isSettled, hretry] at hlt
  have hbound : (l.series role logger c retry).last b w + 1 ≤ retry.maxAttempts :=
    ((l.series role logger c retry).isLeast_last b w).2 (.inl rfl)
  constructor
  · intro hplain
    rw [hplain] at hlt hretry
    have hlast : k = (l.series role logger c retry).last b w := by
      rcases Nat.lt_or_eq_of_le hk with hmore | heq
      · cases (hlt.mp hmore).1
      · exact heq
    refine ⟨hlast, ?_⟩
    have hrun := congrArg Prod.fst ((l.series role logger c retry).run_withRetry b w)
    rw [← hlast, he, Series.run_conclude_error, hretry, if_neg Bool.false_ne_true] at hrun
    rw [login_provider]
    exact hrun
  · intro hmarked
    rw [hmarked] at hlt
    constructor
    · intro hlast
      have hnone : ¬ k + 1 < retry.maxAttempts := fun hmore => Nat.ne_of_lt (hlt.mpr ⟨rfl, hmore⟩) hlast
      omega
    · intro hall
      omega

end

/-- A page whose fields are missing, with a banner or without one. -/
def refusingPage (banner : Option String) : PageBehaviour Unit where
  url _ _ := "https://app.example/login"
  respond call _ _ :=
    { duration := 0
      outcome := match call with
        | .goto .. | .waitForUrl .. | .waitForLoadState .. | .fill .. | .click _ | .reload _ | .clearCookies =>
          .ok ()
        | .waitForSelector selector _ => .error (.selector selector)
        | .isVisible selector => .ok (banner.isSome && selector = ".error-message")
        | .inputValue _ => .ok ""
        | .textContent _ => .ok banner
        | .evaluate _ => .ok .null
        | .storageState => .ok {}
      page := ()
      abandoned := fun _ => () }

/-- A login through a form whose field for the user is found by the name of that. -/
def plainForm : PageLogin :=
  .form { loginUrl := "https://app.example/login", usernameSelector := "#user" }

/-- What a login through it reports where that field is missing. -/
def userMissing : AuthError where
  message := "selector not found: #user"
  role := "admin"
  phase := .credentials

/-- A missing field is no reason to try again. -/
theorem lasting_failure_last_refusingPage :
    0 = (plainForm.series "admin" .standard ⟨"ada", "secret"⟩ {}).last (refusingPage none) { page := () } ∧
      (((plainForm.provider "admin" .standard {}).login ⟨"ada", "secret"⟩).run.run (refusingPage none)
        { page := () }).1 = .error (userMissing.withDefaultRemediation "admin") := by
  have hvalue : (plainForm.series "admin" .standard ⟨"ada", "secret"⟩ {}).outcome (refusingPage none)
      { page := () } 0 = .error userMissing := by
    rfl
  have hcause : plainForm.FailsBy "admin" .standard ⟨"ada", "secret"⟩ (refusingPage none) 0 { page := () }
      (.page (.selector "#user")) :=
    ⟨.credentials, .selector "#user", rfl, by rfl⟩
  have hplain : isRetryable "#user" = false := by decide
  exact (lasting_failure_last (l := plainForm) trivial (Nat.zero_le _) hvalue
    (.inr ⟨rfl, _, hcause, trivial, rfl⟩)).1 hplain

/-- A banner whose text has a marker is taken for a failure that passes: the login is tried again. -/
theorem retried_despite_banner :
    ∃ e, (plainForm.series "admin" .standard ⟨"ada", "secret"⟩ {}).outcome
        (refusingPage (some "Session timeout, sign in again")) { page := () } 0 = .error e ∧
      e.idpResponse = some "Session timeout, sign in again" ∧
      0 < (plainForm.series "admin" .standard ⟨"ada", "secret"⟩ {}).last
        (refusingPage (some "Session timeout, sign in again")) { page := () } := by
  have hvalue : (plainForm.series "admin" .standard ⟨"ada", "secret"⟩ {}).outcome
      (refusingPage (some "Session timeout, sign in again")) { page := () } 0 =
      .error (userMissing.withIdpResponse "Session timeout, sign in again") := by
    rfl
  refine ⟨_, hvalue, rfl, ?_⟩
  rw [Series.lt_last_iff _ _ _ (Nat.zero_le _), hvalue]
  exact ⟨by decide, by decide⟩

end PageLogin

end SignOn
