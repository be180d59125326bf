import SignOn.Proofs.LastingFailures
import SignOn.Proofs.Twins

/-! # What a password leaves behind

* `Idp.Handler.Blind` holds of handlers that read no field back; the built-in ones are such
  (`Idp.blind_of_builtIn`).
* Two logins of one user with different passwords are twins, from the parts of a step up to the provider:
  `Idp.twin_fillCredentials`, `Flow.sameStep_steps`, `Flow.twin_execute`, `PageLogin.twin_login`.
* `Credentials.run_resolve` says what looking a password up leads to.
* `password_unobservable` puts both together: nothing but what is entered into a password field tells two
  passwords apart. -/

namespace SignOn

theorem Plan.Obeys.blind {F : String → String → Prop} {α : Type} {Q : α → Prop} {p : Plan α}
    (h : p.Obeys (Request.EntersBlindly F) Q) : p.Obeys Request.Blind Q :=
  h.mono (fun _ => Request.EntersBlindly.blind) fun _ => id

theorem Attempt.Obeys.blind {F : String → String → Prop} {α : Type} {E : AuthError → Prop} {p : Attempt α}
    (h : p.Obeys (Request.EntersBlindly F) E) : p.Obeys Request.Blind fun _ => True :=
  h.mono (fun _ => Request.EntersBlindly.blind) fun _ _ => trivial

/-! ### Handlers -/

namespace Idp

/-- The handler reads no field back. -/
structure Handler.Blind (h : Handler) : Prop where
  mfa : ∀ ctx ch, (h.mfa ctx ch).Obeys Request.Blind fun _ => True
  prompts : ∀ prompts, h.prompts = some prompts → ∀ ctx, (prompts ctx).Obeys Request.Blind fun _ => True

theorem blind_of_builtIn {h : Handler} (hh : h.BuiltIn) : h.Blind where
  mfa _ ch := (obeys_mfa (F := fun _ _ => True) hh ch fun _ _ => trivial).blind
  prompts _ hprompts _ := (obeys_prompts (F := fun _ _ => True) hh hprompts).blind

variable {v : Veil} {ctx : Context} {s : Selectors} {user : String}

theorem twin_fillCredentials (h : v.covers s.password) :
    (fillCredentials ctx ⟨user, v.left⟩ s).Twin v (fillCredentials ctx ⟨user, v.right⟩ s) := by
  unfold fillCredentials
  refine Attempt.twin_page_bind trivial fun _ => ?_
  refine Attempt.twin_page_bind trivial fun _ => ?_
  have hvisible : (Page.waitVisible s.password ctx.probe).Obeys Request.Blind fun _ => True :=
    (Page.obeys_waitVisible (F := fun _ _ => True) _ _).blind
  refine (Attempt.twin_of hvisible.twin).bind fun visible => ?_
  dsimp only
  split
  · exact (Attempt.twin_write ctx.logger .debug _).bind fun _ => Attempt.twin_fill h
  · refine (Attempt.twin_write ctx.logger .debug _).bind fun _ => ?_
    refine Attempt.twin_page_bind trivial fun _ => ?_
    exact Attempt.twin_page_bind trivial fun _ => Attempt.twin_fill h

theorem twin_isEmptyField (selector : String) : (isEmptyField selector).Twin v (isEmptyField selector) := by
  refine .ask (.same _) fun x y hxy => ?_
  match x, y, hxy with
  | .error e, .error e', _ => exact .done _
  | .ok (x : String), .ok (y : String), hxy =>
      have hempty : decide (x = "") = decide (y = "") := decide_eq_decide.mpr hxy
      change Plan.Twin v (.done (decide (x = ""))) (.done (decide (y = "")))
      rw [hempty]
      exact .done _

theorem twin_submitForm : (submitForm ctx s).Twin v (submitForm ctx s) := by
  unfold submitForm
  refine Attempt.twin_page_bind trivial fun _ => ?_
  have hrest : ctx.rest.Obeys Request.Blind fun _ => True := obeys_rest fun _ => trivial
  have hsees : (Page.sees s.password).Obeys Request.Blind fun _ => True := Page.obeys_sees trivial
  refine hrest.twin.bind fun _ => ?_
  refine (Attempt.twin_of hsees.twin).bind fun seen => ?_
  dsimp only
  split
  · refine (Attempt.twin_of (twin_isEmptyField s.password)).bind fun empty => ?_
    split
    · exact (Attempt.twin_write ctx.logger .debug _).bind fun _ => Attempt.twin_pure _
    · exact Attempt.twin_pure _
  · exact Attempt.twin_pure _

end Idp

/-! ### Logins at an identity provider -/

namespace Flow

variable {v : Veil} {f : Flow} {role user : String} {d : Deadline}

theorem twin_submit {ctx : Idp.Context} {s : Selectors} (h : v.covers s.password) :
    (submit ctx ⟨user, v.left⟩ s).Twin v (submit ctx ⟨user, v.right⟩ s) := by
  unfold submit
  refine Idp.twin_submitForm.bind fun became => ?_
  split
  · exact (Attempt.twin_fill h).bind fun _ => Idp.twin_submitForm.bind fun _ => Attempt.twin_pure _
  · exact Attempt.twin_pure _

/-- The same step, with attempts that are twins. -/
def SameStep (v : Veil) (s s' : Step × Attempt Unit) : Prop :=
  s'.1 = s.1 ∧ s.2.Twin v s'.2

theorem twin_runSteps {steps steps' : List (Step × Attempt Unit)}
    (h : List.Forall₂ (SameStep v) steps steps') (last : Step) :
    (runSteps d role last steps).Twin v (runSteps d role last steps') := by
  induction h generalizing last with
  | nil => exact .done _
  | @cons s s' rest rest' hs _ ih =>
      obtain ⟨step, p⟩ := s
      obtain ⟨step', p'⟩ := s'
      obtain ⟨rfl, hp⟩ := hs
      rw [runSteps, runSteps]
      have hbounded : (bounded d role step' p).Twin v (bounded d role step' p') := by
        refine (hp.within d.at_).bind fun r => ?_
        cases r <;> exact .done _
      refine Plan.Twin.bind hbounded fun r => ?_
      cases r with
      | error e => exact .done _
      | ok u => exact ih step'

theorem sameStep_opening : List.Forall₂ (SameStep v) (f.opening role) (f.opening role) :=
  List.forall₂_same.mpr fun _ hs => ⟨rfl, (obeys_of_mem_opening (F := fun _ _ => True) hs).blind.twin⟩

/-- Only the first two steps have to do with the password. -/
theorem sameStep_steps {h : Idp.Handler} (hh : h.Blind) (hcovers : v.covers (f.selectorsFor h).password) :
    List.Forall₂ (SameStep v) (f.steps h role ⟨user, v.left⟩) (f.steps h role ⟨user, v.right⟩) := by
  unfold steps
  refine .cons ⟨rfl, Idp.twin_fillCredentials hcovers⟩ (.cons ⟨rfl, twin_submit hcovers⟩ ?_)
  refine List.forall₂_same.mpr fun s hs => ?_
  simp only [List.mem_append, List.mem_singleton] at hs
  rcases hs with (hs | hs) | rfl
  · split at hs
    · cases hs
    · obtain rfl := List.mem_singleton.mp hs
      have hsecret : (f.secret role).Obeys Request.Blind fun _ => True :=
        (obeys_secret (F := fun _ _ => True)).blind
      exact ⟨rfl, hsecret.twin.bind fun secret => (hh.mfa _ _).twin⟩
  · split at hs
    · next prompts hprompts =>
        obtain rfl := List.mem_singleton.mp hs
        exact ⟨rfl, (hh.prompts prompts hprompts _).twin⟩
    · cases hs
  · exact ⟨rfl, (obeys_awaitSuccess (F := fun _ _ => True)).blind.twin⟩

theorem twin_run (hf : ∀ h ∈ f.registry.handlers, h.Blind)
    (hcovers : ∀ address, v.covers (f.selectorsFor (f.handlerFor address)).password) :
    (f.run role ⟨user, v.left⟩ d).Twin v (f.run role ⟨user, v.right⟩ d) := by
  refine (twin_runSteps sameStep_opening .navigate).bind fun taken => ?_
  obtain ⟨step, r⟩ := taken
  cases r with
  | error e => exact .done _
  | ok u =>
      refine Plan.twin_ask trivial fun address => ?_
      refine Plan.twin_ask trivial fun _ => ?_
      have hh : (f.handlerFor address).Blind :=
        handlerFor_of hf (Idp.blind_of_builtIn Idp.builtIn_generic) address
      exact twin_runSteps (sameStep_steps hh (hcovers address)) step

theorem LooksForBanner.blind {r : Request} (h : LooksForBanner r) : r.Blind := by
  cases r with
  | page c => cases c <;> first | exact h.elim | trivial
  | _ => trivial

theorem twin_conclude (start : Nat) (taken : Step × Except AuthError Unit) :
    (f.conclude role start taken).Twin v (f.conclude role start taken) := by
  obtain ⟨step, r⟩ := taken
  cases r with
  | ok u =>
      refine Plan.Obeys.twin ((f.obeys_conclude_ok role start step).mono (fun r hr => ?_) fun _ => id)
      cases r with
      | page c => cases hr
      | _ => trivial
  | error e =>
      exact Plan.Obeys.twin ((f.obeys_conclude_error role start step e).mono (fun _ => LooksForBanner.blind)
        fun _ => id)

theorem twin_execute (hf : ∀ h ∈ f.registry.handlers, h.Blind)
    (hcovers : ∀ address, v.covers (f.selectorsFor (f.handlerFor address)).password) :
    (f.execute role ⟨user, v.left⟩).Twin v (f.execute role ⟨user, v.right⟩) := by
  refine Plan.twin_ask trivial fun start => ?_
  refine Plan.twin_ask trivial fun _ => ?_
  exact (twin_run hf hcovers).bind (twin_conclude start)

end Flow

/-! ### Logins on a page -/

theorem twin_retryFrom {v : Veil} {α : Type} {retry : RetryPolicy} {role : String} {logger : Logger}
    {attempt attempt' : Nat → Attempt α} (h : ∀ k, (attempt k).Twin v (attempt' k)) (left current : Nat) :
    (retryFrom retry role logger attempt left current).Twin v
      (retryFrom retry role logger attempt' left current) := by
  induction left generalizing current with
  | zero => exact h current
  | succ left ih =>
      rw [retryFrom, retryFrom]
      refine Plan.Twin.bind (h current) fun r => ?_
      cases r with
      | ok a => exact .done _
      | error e =>
          dsimp only
          split
          · exact Plan.twin_ask trivial fun _ => .done _
          · split
            · exact Plan.twin_ask trivial fun _ => .done _
            · exact Plan.twin_ask trivial fun _ => Plan.twin_ask trivial fun _ => ih (current + 1)

namespace Provider

variable {v : Veil} {s : FormSettings} {role user : String}

theorem blind_withBanner (e : AuthError) : (withBanner e).Obeys Request.Blind fun _ => True :=
  (Flow.obeys_withBanner e).mono (fun _ => Flow.LooksForBanner.blind) fun _ => id

theorem twin_formLogin (h : v.covers s.passwordSelector) :
    (formLogin s role ⟨user, v.left⟩).Twin v (formLogin s role ⟨user, v.right⟩) := by
  unfold formLogin
  refine Attempt.twin_page_bind trivial fun _ => ?_
  refine Attempt.twin_page_bind trivial fun _ => ?_
  refine Attempt.twin_page_bind trivial fun _ => ?_
  refine (Attempt.twin_fill h).bind fun _ => ?_
  refine Attempt.twin_page_bind trivial fun _ => ?_
  have hsuccess : (Page.waitForSuccess s.success s.success.timeoutMs).Obeys Request.Blind fun _ => True :=
    (Page.obeys_waitForSuccess (F := fun _ _ => True) _ _).blind
  refine (Attempt.twin_of hsuccess.twin).bind fun r => ?_
  cases r with
  | ok _ => exact .done _
  | error e => exact .done _

theorem twin_formAttempt (h : v.covers s.passwordSelector) :
    (formAttempt s role ⟨user, v.left⟩).Twin v (formAttempt s role ⟨user, v.right⟩) := by
  refine Plan.twin_ask trivial fun start => ?_
  refine Plan.Twin.bind (twin_formLogin h) fun r => ?_
  cases r with
  | ok u => exact Plan.twin_ask trivial fun _ => Plan.twin_ask trivial fun _ => .done _
  | error e => exact (blind_withBanner e).twin.bind fun _ => .done _

end Provider

namespace PageLogin

/-- The login goes through no handler that reads a field back. -/
def Blind : PageLogin → Prop
  | oidc _ registry => ∀ h ∈ registry.handlers, h.Blind
  | form _ => True

theorem BuiltIn.blind {l : PageLogin} (h : l.BuiltIn) : l.Blind := by
  cases l with
  | oidc s registry => exact fun handler hhandler => Idp.blind_of_builtIn (h handler hhandler)
  | form s => trivial

/-- The fields that the password is meant for: at an identity provider the one of the handler for the address
that the login is sent to. -/
def PasswordField : PageLogin → String → Prop
  | oidc s registry, selector =>
    let f := flow .standard s registry
    ∃ address, selector = (f.selectorsFor (f.handlerFor address)).password
  | form s, selector => selector = s.passwordSelector

variable {v : Veil} {l : PageLogin} {role user : String} {logger : Logger}

theorem twin_attempt (hl : l.Blind) (h : ∀ selector, l.PasswordField selector → v.covers selector) (k : Nat) :
    (l.attempt role logger ⟨user, v.left⟩ k).Twin v (l.attempt role logger ⟨user, v.right⟩ k) := by
  cases l with
  | oidc s registry =>
      refine (Attempt.twin_write logger .debug _).bind fun _ => ?_
      exact Flow.twin_execute hl fun address => h _ ⟨address, rfl⟩
  | form s => exact Provider.twin_formAttempt (h _ rfl)

/-- Two logins of one user with different passwords are twins. -/
theorem twin_login (hl : l.Blind) (h : ∀ selector, l.PasswordField selector → v.covers selector)
    (retry : RetryPolicy) :
    ((l.provider role logger retry).login ⟨user, v.left⟩).Twin v
      ((l.provider role logger retry).login ⟨user, v.right⟩) := by
  rw [login_provider, login_provider]
  exact twin_retryFrom (twin_attempt hl h) _ _

end PageLogin

/-! ### Looking a password up -/

/-- The same world with a variable of the environment set. -/
def World.exporting {σ : Type} (w : World σ) (name value : String) : World σ :=
  { w with environment := fun n => if n = name then some value else w.environment n }

namespace Credentials

variable {σ : Type} (b : PageBehaviour σ) {s : Settings} {r : RoleSettings} {role : String}

theorem run_nonBlankEnv (name : String) (w : World σ) :
    (Plan.nonBlankEnv name).run b w = ((w.environment name).filter fun v => !Text.isAllBlank v, w) := rfl

/-- With a password that is not blank a user name is all that is missing, if anything is. -/
theorem run_resolve (hr : s.role role = .ok r) (logger : Logger)
    (hne : r.credentials.username ≠ r.credentials.password) {password : String}
    (hp : Text.isAllBlank password = false) (w : World σ) :
    (resolve s logger role).run b (w.exporting r.credentials.password password) =
      match (w.environment r.credentials.username).filter fun v => !Text.isAllBlank v with
      | some username =>
        (.ok ⟨username, password⟩,
          ((logger.info ("resolved credentials for role '" ++ role ++ "': username=" ++ username
            ++ " password=" ++ logger.mask password)).run b
              (w.exporting r.credentials.password password)).2)
      | none =>
        (.error (.missing role [r.credentials.username]), w.exporting r.credentials.password password) := by
  have husername : (w.exporting r.credentials.password password).environment r.credentials.username =
      w.environment r.credentials.username := if_neg hne
  have hpassword : ((w.exporting r.credentials.password password).environment
      r.credentials.password).filter (fun v => !Text.isAllBlank v) = some password := by
    have henvironment : (w.exporting r.credentials.password password).environment r.credentials.password =
        some password := if_pos rfl
    rw [henvironment, Option.filter_some, hp]
    rfl
  unfold resolve
  rw [hr]
  simp only [Plan.bind_eq, Plan.run_bind, run_nonBlankEnv, husername, hpassword]
  cases (w.environment r.credentials.username).filter fun v => !Text.isAllBlank v with
  | some username => rfl
  | none => rfl

end Credentials

/-- **A password shows nowhere but in its field.**  On a page that reacts to any two passwords that are not
empty in the same way, logins of one user with the one and with the other come to the same result, write the
same lines to the log and make the same calls at the same times, up to the value that is entered into a
password field.  With masking on, looking up either of two passwords that are not blank writes the same lines,
and what is found is shown in the same way. -/
theorem password_unobservable {σ : Type} (b : PageBehaviour σ) (w : World σ) :
    (∀ (l : PageLogin) (role : String) (logger : Logger) (retry : RetryPolicy) (user p p' : String)
        (R : σ → σ → Prop), l.Blind → p ≠ "" → p' ≠ "" → b.Indifferent l.PasswordField R → R w.page w.page →
      let login (password : String) := ((l.provider role logger retry).login ⟨user, password⟩).run.run b w
      (login p').1 = (login p).1 ∧ (login p').2.logs = (login p).2.logs ∧
        List.Forall₂ (SameCall ⟨l.PasswordField, p, p'⟩) (login p).2.calls (login p').2.calls) ∧
    (∀ (s : Settings) (r : RoleSettings) (role : String) (logger : Logger) (p p' : String),
        s.role role = .ok r → r.credentials.username ≠ r.credentials.password → logger.masks = true →
        Text.isAllBlank p = false → Text.isAllBlank p' = false →
      let resolved (password : String) :=
        (Credentials.resolve s logger role).run b (w.exporting r.credentials.password password)
      (resolved p').1.map Credentials.shown = (resolved p).1.map Credentials.shown ∧
        (resolved p').2.logs = (resolved p).2.logs) := by
  constructor
  · intro l role logger retry user p p' R hl hp hp' hb hw login
    have htwin : ((l.provider role logger retry).login ⟨user, p⟩).Twin ⟨l.PasswordField, p, p'⟩
        ((l.provider role logger retry).login ⟨user, p'⟩) :=
      PageLogin.twin_login hl (fun _ h => h) retry
    obtain ⟨hvalue, hworld⟩ := Plan.Twin.run hb ⟨hp, hp'⟩ htwin (World.Twin.refl hw)
    exact ⟨hvalue, hworld.logs_eq, hworld.calls⟩
  · intro s r role logger p p' hr hne hmasks hp hp' resolved
    have hmask : ∀ password, logger.mask password = "****" := fun _ => if_pos hmasks
    have hfirst := Credentials.run_resolve b hr logger hne hp w
    have hsecond := Credentials.run_resolve b hr logger hne hp' w
    simp only [resolved, hfirst, hsecond, hmask]
    cases (w.environment r.credentials.username).filter fun v => !Text.isAllBlank v with
    | some username => exact ⟨rfl, rfl⟩
    | none => exact ⟨rfl, rfl⟩

/-- A page with a password field that shows: its state is what stands in the field. -/
def fieldPage : PageBehaviour String where
  url _ _ := "https://app.example/home"
  respond call text _ :=
    { duration := 1
      outcome := match call with
        | .goto .. | .waitForUrl .. | .waitForSelector .. | .waitForLoadState .. | .fill .. | .click _
        | .reload _ | .clearCookies => .ok ()
        | .isVisible selector => .ok (selector = "#password" : Bool)
        | .inputValue _ => .ok text
        | .textContent _ => .ok none
        | .evaluate _ => .ok .null
        | .storageState => .ok {}
      page := match call with
        | .fill selector value => if selector = "#password" then value else text
        | _ => text
      abandoned := fun _ => text }

theorem indifferent_fieldPage (fields : String → Prop) :
    fieldPage.Indifferent fields fun x y => x = "" ↔ y = "" where
  url _ _ _ _ := rfl
  respond c x y t h := by
    refine ⟨rfl, ?_, ?_, fun _ => h⟩
    · cases c <;> first | exact h | rfl
    · cases c with
      | fill selector value =>
          simp only [fieldPage]
          split
          · exact .rfl
          · exact h
      | _ => exact h
  fill selector p p' x y t _ hp hp' h := by
    refine ⟨rfl, rfl, ?_, fun _ => h⟩
    simp only [fieldPage]
    split
    · exact iff_of_false hp hp'
    · exact h

def realmLogin : PageLogin :=
  .oidc
    { idp := .keycloak
      loginUrl := "https://app.example/login"
      success := { selector := some "#home" }
      settle := 0 }
    {}

/-- A world in which a user name is known. -/
def adaWorld : World String :=
  { page := "", environment := fun name => if name = "ADMIN_USER" then some "ada" else none }

/-- A run of the login with a password. -/
def realmRun (password : String) : Except AuthError SignedOn × World String :=
  ((realmLogin.provider "admin" .standard {}).login ⟨"ada", password⟩).run.run fieldPage adaWorld

/-- One role, with its credentials in two variables. -/
def oneRole : Settings where
  roles := [("admin", { credentials := ⟨"ADMIN_USER", "ADMIN_PASSWORD"⟩ })]

def oneRoleRun (password : String) : Except CredentialError Credentials × World String :=
  (Credentials.resolve oneRole .standard "admin").run fieldPage (adaWorld.exporting "ADMIN_PASSWORD" password)

/-- Two passwords, one of which is seen to be entered at a Keycloak, and the same two in the environment. -/
theorem password_unobservable_fieldPage :
    ((realmRun "secret").2.calls.any fun c => c.2 = .fill "#password" "secret") = true ∧
      (realmRun "hunter2").1 = (realmRun "secret").1 ∧ (realmRun "hunter2").2.logs = (realmRun "secret").2.logs ∧
      List.Forall₂ (SameCall ⟨realmLogin.PasswordField, "secret", "hunter2"⟩) (realmRun "secret").2.calls
        (realmRun "hunter2").2.calls ∧
      (oneRoleRun "hunter2").1.map Credentials.shown = (oneRoleRun "secret").1.map Credentials.shown ∧
      (oneRoleRun "hunter2").2.logs = (oneRoleRun "secret").2.logs := by
  have hentered : ((realmRun "secret").2.calls.any fun c => c.2 = .fill "#password" "secret") = true := by
    decide +kernel
  have hblind : realmLogin.Blind := PageLogin.BuiltIn.blind (l := realmLogin) fun _ h => h
  have hrole : oneRole.role "admin" = .ok { credentials := ⟨"ADMIN_USER", "ADMIN_PASSWORD"⟩ } := rfl
  obtain ⟨hlogin, hresolve⟩ := password_unobservable fieldPage adaWorld
  obtain ⟨hvalue, hlogs, hcalls⟩ := hlogin realmLogin "admin" .standard {} "ada" "secret" "hunter2" _ hblind
    (by decide) (by decide) (indifferent_fieldPage _) .rfl
  obtain ⟨hshown, hlogs'⟩ := hresolve oneRole _ "admin" .standard "secret" "hunter2" hrole (by decide) rfl
    (by decide) (by decide)
  exact ⟨hentered, hvalue, hlogs, hcalls, hshown, hlogs'⟩

end SignOn
