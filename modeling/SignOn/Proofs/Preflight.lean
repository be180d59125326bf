import SignOn.Command.Run
import SignOn.Proofs.Secrecy

/-! # Checking credentials ahead of a login

A login looks the credentials of its role up and stops at the first thing that is wrong; a check ahead of it
goes through many roles and lists all that is wrong.  Both look at nothing but the environment.

* `Credentials.given` is the value of a variable, unless it is blank; `Credentials.found` is what looking a
  role up gives, and `Credentials.lacking` what a check lists for it.
* `Credentials.run_resolve_eq` and `Credentials.run_validate` say that the two plans come to these.
* `Credentials.found_ok_iff` and `Credentials.envVars_lacking` compare the two for one role.
* `Command.run_check` is the whole action of the command line.
* `Credentials.preflight_agrees` puts all of it together. -/

namespace SignOn

namespace Credentials

variable {σ : Type} {b : PageBehaviour σ} {s : Settings} {env : String → Option String} {role : String}

/-! ### What an environment holds -/

/-- The value of a variable, unless it is blank. -/
def given (env : String → Option String) (name : String) : Option String :=
  (env name).filter fun v => !Text.isAllBlank v

/-- What looking a role up comes to. -/
def found (s : Settings) (env : String → Option String) (role : String) :
    Except CredentialError Credentials :=
  match s.role role with
  | .error e => .error e
  | .ok r => ofValues role r.credentials (given env r.credentials.username) (given env r.credentials.password)

/-- What is missing for a variable. -/
def lackingVar (env : String → Option String) (role : String) (kind : MissingKind) (name : String) :
    List MissingCredential :=
  match given env name with
  | some _ => []
  | none => [⟨role, kind, some name⟩]

def lacking (s : Settings) (env : String → Option String) (role : String) : List MissingCredential :=
  match s.role role with
  | .error _ => [⟨role, .unknownRole, none⟩]
  | .ok r => lackingVar env role .username r.credentials.username
      ++ lackingVar env role .password r.credentials.password

/-! ### Runs -/

theorem run_resolve_eq (logger : Logger) (w : World σ) :
    ((resolve s logger role).run b w).1 = found s w.environment role := by
  unfold resolve found
  cases s.role role with
  | error e => rfl
  | ok r =>
      simp only [Plan.bind_eq, Plan.run_bind, run_nonBlankEnv, given]
      generalize (w.environment r.credentials.username).filter _ = username
      generalize (w.environment r.credentials.password).filter _ = password
      cases ofValues role r.credentials username password with
      | error e => rfl
      | ok c => rfl

theorem run_ofVar (kind : MissingKind) (name : String) (w : World σ) :
    (MissingCredential.ofVar role kind name).run b w = (lackingVar w.environment role kind name, w) := by
  unfold MissingCredential.ofVar lackingVar
  simp only [Plan.bind_eq, Plan.run_bind, run_nonBlankEnv, given]
  cases (w.environment name).filter fun v => !Text.isAllBlank v with
  | some v => rfl
  | none => rfl

theorem run_ofRole (w : World σ) :
    (MissingCredential.ofRole s role).run b w = (lacking s w.environment role, w) := by
  unfold MissingCredential.ofRole lacking
  cases s.role role with
  | error e => rfl
  | ok r => simp only [Plan.bind_eq, Plan.run_bind, run_ofVar, Plan.pure_eq, Plan.run_done]

theorem run_ofRoles (roles : List String) (w : World σ) :
    (MissingCredential.ofRoles s roles).run b w = (roles.flatMap (lacking s w.environment), w) := by
  induction roles with
  | nil => rfl
  | cons role rest ih =>
      simp only [MissingCredential.ofRoles, Plan.bind_eq, Plan.run_bind, run_ofRole, ih, Plan.pure_eq,
        Plan.run_done, List.flatMap_cons]

/-- A check leaves at most a line in the log. -/
theorem run_validate (logger : Logger) (roles : List String) (w : World σ) :
    ∃ logs, (validate s logger roles).run b w =
      (roles.flatMap (lacking s w.environment), { w with logs := logs }) := by
  unfold validate
  simp only [Plan.bind_eq, Plan.run_bind, run_ofRoles]
  by_cases h : roles.flatMap (lacking s w.environment) = []
  · rw [if_neg (not_not.mpr h)]
    exact ⟨w.logs, rfl⟩
  · rw [if_pos h]
    exact ⟨_, rfl⟩

theorem run_validate_fst (logger : Logger) (roles : List String) (w : World σ) :
    ((validate s logger roles).run b w).1 = roles.flatMap (lacking s w.environment) := by
  obtain ⟨logs, h⟩ := run_validate (b := b) (s := s) logger roles w
  rw [h]

/-! ### One role -/

theorem role_of_mem_lackingVar {kind : MissingKind} {name : String} {m : MissingCredential}
    (h : m ∈ lackingVar env role kind name) : m.role = role := by
  unfold lackingVar at h
  split at h
  · cases h
  · rw [List.mem_singleton.mp h]

theorem role_of_mem_lacking {m : MissingCredential} (h : m ∈ lacking s env role) : m.role = role := by
  unfold lacking at h
  split at h
  · rw [List.mem_singleton.mp h]
  · rcases List.mem_append.mp h with h | h
    · exact role_of_mem_lackingVar h
    · exact role_of_mem_lackingVar h

/-- How looking a role up and listing what is missing for it go together. -/
inductive Verdict (role : String) : Except CredentialError Credentials → List MissingCredential → Prop where
  | set (c : Credentials) : Verdict role (.ok c) []
  | unset (vars : List String) (issues : List MissingCredential) (hne : issues ≠ [])
      (hvars : issues.map MissingCredential.envVar = vars.map some)
      (hkind : ∀ m ∈ issues, m.kind ≠ .unknownRole) : Verdict role (.error (.missing role vars)) issues
  | unknown (available : List String) :
      Verdict role (.error (.unknownRole role available)) [⟨role, .unknownRole, none⟩]

theorem verdict (s : Settings) (env : String → Option String) (role : String) :
    Verdict role (found s env role) (lacking s env role) := by
  cases hrole : s.role role with
  | error e =>
      have hunknown : e = .unknownRole role s.roleNames := by
        unfold Settings.role at hrole
        split at hrole
        · cases hrole
        · exact (Except.error.inj hrole).symm
      simp only [found, lacking, hrole, hunknown]
      exact .unknown _
  | ok r =>
      simp only [found, lacking, lackingVar, hrole]
      cases given env r.credentials.username with
      | some username =>
          cases given env r.credentials.password with
          | some password => exact .set _
          | none => exact .unset _ _ (by simp) rfl (by simp)
      | none =>
          cases given env r.credentials.password with
          | some password => exact .unset _ _ (by simp) rfl (by simp)
          | none => exact .unset _ _ (by simp) rfl (by simp)

namespace Verdict

variable {r : Except CredentialError Credentials} {issues : List MissingCredential}

theorem eq_nil_iff (h : Verdict role r issues) : issues = [] ↔ ∃ c, r = .ok c := by
  cases h with
  | set c => exact ⟨fun _ => ⟨c, rfl⟩, fun _ => rfl⟩
  | unset vars issues hne => exact iff_of_false hne (fun ⟨c, h⟩ => nomatch h)
  | unknown available => exact iff_of_false (List.cons_ne_nil _ _) (fun ⟨c, h⟩ => nomatch h)

theorem of_missing {role' : String} {vars : List String} (h : Verdict role r issues)
    (hr : r = .error (.missing role' vars)) :
    role' = role ∧ issues.map MissingCredential.envVar = vars.map some ∧
      ∀ m ∈ issues, m.kind ≠ .unknownRole := by
  cases h with
  | set c => cases hr
  | unset vars issues hne hvars hkind =>
      cases hr
      exact ⟨rfl, hvars, hkind⟩
  | unknown available => cases hr

theorem of_unknownRole {role' : String} {available : List String} (h : Verdict role r issues)
    (hr : r = .error (.unknownRole role' available)) :
    role' = role ∧ issues = [⟨role, .unknownRole, none⟩] := by
  cases h with
  | set c => cases hr
  | unset vars issues hne => cases hr
  | unknown available =>
      cases hr
      exact ⟨rfl, rfl⟩

end Verdict

/-! ### Several roles -/

/-- A check lists for a role what is missing for it, as often as the role is named. -/
theorem filter_lacking (s : Settings) (env : String → Option String) (role : String) (roles : List String) :
    (roles.flatMap (lacking s env)).filter (·.role = role) =
      (List.replicate (roles.count role) (lacking s env role)).flatten := by
  induction roles with
  | nil => rfl
  | cons first rest ih =>
      rw [List.flatMap_cons, List.filter_append, ih]
      by_cases h : first = role
      · have hall : (lacking s env first).filter (·.role = role) = lacking s env role := by
          rw [h]
          exact List.filter_eq_self.mpr fun m hm => decide_eq_true (role_of_mem_lacking hm)
        rw [hall, h, List.count_cons_self, List.replicate_succ, List.flatten_cons]
      · have hnone : (lacking s env first).filter (·.role = role) = [] :=
          List.filter_eq_nil_iff.mpr fun m hm => by
            rw [role_of_mem_lacking hm]
            simpa using h
        rw [hnone, List.nil_append, List.count_cons_of_ne h]

/-- No issue of a list of roles is about one of them exactly if that role can be looked up. -/
theorem none_lacking_iff {roles : List String} (h : role ∈ roles) :
    (∀ m ∈ roles.flatMap (lacking s env), m.role ≠ role) ↔ ∃ c, found s env role = .ok c := by
  rw [← (verdict s env role).eq_nil_iff, List.eq_nil_iff_forall_not_mem]
  constructor
  · intro hnone m hm
    exact hnone m (List.mem_flatMap.mpr ⟨role, h, hm⟩) (role_of_mem_lacking hm)
  · intro hnil m hm hrole
    obtain ⟨role', -, hm'⟩ := List.mem_flatMap.mp hm
    have hsame : role' = role := (role_of_mem_lacking hm').symm.trans hrole
    exact hnil m (hsame ▸ hm')

theorem flatMap_lacking_eq_nil_iff {roles : List String} :
    roles.flatMap (lacking s env) = [] ↔ ∀ role ∈ roles, ∃ c, found s env role = .ok c := by
  simp only [List.flatMap_eq_nil_iff, (verdict s env _).eq_nil_iff]

end Credentials

/-! ### The command line -/

namespace Command

variable {σ : Type} {b : PageBehaviour σ} {s : Settings}

/-- The roles that a check is about: those that are named, or all of them. -/
def selected (s : Settings) (named : List String) : List String :=
  if named = [] then s.roleNames else named

theorem run_loadSettings_snd (path : String) (w : World σ) : ((loadSettings path).run b w).2 = w := by
  unfold loadSettings
  simp only [Plan.bind_eq, Plan.run_file]
  cases (World.fileStep (.read path) w).1 with
  | error e => rfl
  | ok content =>
      dsimp only
      cases Files.Content.text? content with
      | some text => rfl
      | none => rfl

theorem formatMissing_eq_iff (issues : List MissingCredential) :
    formatMissing issues = "All role credentials are set." ↔ issues = [] := by
  unfold formatMissing
  split
  · next h => exact iff_of_true rfl h
  · next h =>
      refine iff_of_false (fun he => ?_) h
      have hfirst := congrArg (fun t => t.toList.head?) he
      simp [String.toList_append] at hfirst

/-- A check prints one line; it notes that nothing is missing, or fails. -/
theorem run_check (named : List String) (w : World σ) :
    let issues := (selected s named).flatMap (Credentials.lacking s w.environment)
    ((check s named).run.run b w).2.printed = formatMissing issues :: w.printed ∧
      ((check s named).run.run b w).1 =
        if issues = [] then .ok ()
        else .error (.message (toString issues.length ++ " credential issue(s) found")) := by
  intro issues
  obtain ⟨logs, hvalidate⟩ :=
    Credentials.run_validate (b := b) (s := s) (loggerOf s "credentials") (selected s named) w
  have hrun : (check s named).run.run b w =
      (if issues = [] then
          note .info ("credentials present for " ++ toString (selected s named).length ++ " role(s)")
        else throw (.message (toString issues.length ++ " credential issue(s) found")) :
        Job Unit).run.run b { w with logs := logs, printed := formatMissing issues :: w.printed } := by
    change ((Credentials.validate s (loggerOf s "credentials") (selected s named)).bind _ |>.bind _).run b w = _
    rw [Plan.bind_assoc, Plan.run_bind_of_eq b hvalidate]
    rfl
  rw [hrun]
  by_cases h : issues = []
  · rw [if_pos h, if_pos h]
    exact ⟨rfl, rfl⟩
  · rw [if_neg h, if_neg h]
    exact ⟨rfl, rfl⟩

theorem run_run_check {i : Invocation} {named : List String} (hi : i.action = .check named) {w : World σ}
    (hs : ((loadSettings i.config).run b w).1 = .ok s) :
    (run i).run.run b w = (check s named).run.run b w := by
  have hload : (loadSettings i.config).run b w = (.ok s, w) := Prod.ext hs (run_loadSettings_snd _ _)
  obtain ⟨action, config, env, verbosity⟩ := i
  cases hi
  change (((loadSettings config).bind _).bind _).run b w = _
  rw [Plan.bind_assoc, Plan.run_bind_of_eq b hload]
  rfl

end Command

/-- **A check ahead of a login says what the login would find.**  In every environment, and whatever the
settings and the roles are: nothing is listed for a role exactly if its credentials can be looked up.  If
variables are missing, these are the variables that are listed for the role, in the same order; if the role is
unknown, that is the one thing listed for it.  A list of roles is gone through entry by entry, so that a role
named several times is listed as often.  The action of the command line prints that all is set, and succeeds,
exactly if all selected roles can be looked up. -/
theorem Credentials.preflight_agrees {σ : Type} (b : PageBehaviour σ) (s : Settings) (logger logger' : Logger)
    (v w : World σ) (hvw : v.environment = w.environment) :
    let issues (roles : List String) := ((validate s logger roles).run b v).1
    let resolved (role : String) := ((resolve s logger' role).run b w).1
    (∀ (roles : List String), ∀ role ∈ roles,
      ((∀ m ∈ issues roles, m.role ≠ role) ↔ ∃ c, resolved role = .ok c) ∧
      (issues roles).filter (·.role = role) = (List.replicate (roles.count role) (issues [role])).flatten ∧
      (∀ role' vars, resolved role = .error (.missing role' vars) →
        role' = role ∧ (issues [role]).map MissingCredential.envVar = vars.map some ∧
          ∀ m ∈ issues [role], m.role = role ∧ m.kind ≠ .unknownRole) ∧
      ∀ role' available, resolved role = .error (.unknownRole role' available) →
        role' = role ∧ issues [role] = [⟨role, .unknownRole, none⟩]) ∧
    (∀ roles roles', issues (roles ++ roles') = issues roles ++ issues roles') ∧
    ∀ (i : Command.Invocation) (named : List String), i.action = .check named →
      ((Command.loadSettings i.config).run b v).1 = .ok s →
      let ran := (Command.run i).run.run b v
      ran.2.printed = formatMissing (issues (Command.selected s named)) :: v.printed ∧
      (ran.2.printed = "All role credentials are set." :: v.printed ↔
        ∀ role ∈ Command.selected s named, ∃ c, resolved role = .ok c) ∧
      (ran.1 = .ok () ↔ ∀ role ∈ Command.selected s named, ∃ c, resolved role = .ok c) := by
  intro issues resolved
  have hissues (roles : List String) : issues roles = roles.flatMap (lacking s v.environment) :=
    run_validate_fst logger roles v
  have hissue (role : String) : issues [role] = lacking s v.environment role := by
    rw [hissues, List.flatMap_cons, List.flatMap_nil, List.append_nil]
  have hresolved (role : String) : resolved role = found s v.environment role := by
    rw [hvw]
    exact run_resolve_eq logger' w
  refine ⟨fun roles role hrole => ?_, fun roles roles' => ?_, fun i named hi hs => ?_⟩
  · rw [hissues, hissue, hresolved]
    refine ⟨none_lacking_iff hrole, filter_lacking _ _ _ _, fun role' vars h => ?_, fun role' available h => ?_⟩
    · obtain ⟨hrole', hvars, hkind⟩ := (verdict s v.environment role).of_missing h
      exact ⟨hrole', hvars, fun m hm => ⟨role_of_mem_lacking hm, hkind m hm⟩⟩
    · exact (verdict s v.environment role).of_unknownRole h
  · rw [hissues, hissues, hissues, List.flatMap_append]
  · obtain ⟨hprinted, hresult⟩ := Command.run_check (b := b) (s := s) named v
    have hall : issues (Command.selected s named) = [] ↔
        ∀ role ∈ Command.selected s named, ∃ c, resolved role = .ok c := by
      rw [hissues, flatMap_lacking_eq_nil_iff]
      simp only [hresolved]
    rw [← hissues] at hprinted hresult
    dsimp only
    rw [Command.run_run_check hi hs, ← hall]
    refine ⟨hprinted, ?_, ?_⟩
    · rw [hprinted, ← Command.formatMissing_eq_iff]
      exact ⟨fun h => (List.cons.inj h).1, fun h => by rw [h]⟩
    · rw [hresult]
      split
      · next h => exact iff_of_true rfl h
      · next h => exact iff_of_false (fun he => nomatch he) h

def pairText : String :=
  "\x7b\"provider\":\"custom\",\"roles\":\x7b"
    ++ "\"admin\":\x7b\"credentialsEnv\":\x7b\"username\":\"U\",\"password\":\"P\"\x7d\x7d,"
    ++ "\"viewer\":\x7b\"credentialsEnv\":\x7b\"username\":\"V\",\"password\":\"Q\"\x7d\x7d\x7d\x7d"

/-- A world with these settings, in which one user name is blank and its password is not set. -/
def pairWorld : World String :=
  { page := ""
    disk := { tree := [(["auth.config.json"], .file (.text pairText) 0)] }
    environment := fun name => ["U", "P", "V"].zip ["ada", "secret", "  "] |>.lookup name }

/-- The check of some roles by these settings. -/
def pairCheck (named : List String) : Command.Invocation :=
  ⟨.check named, "auth.config.json", none, 0⟩

/-- One role of the two can be looked up, the other one lacks both variables, and a third one is unknown. -/
theorem Credentials.preflight_agrees_pair :
    ∃ s, ((Command.loadSettings "auth.config.json").run fieldPage pairWorld).1 = .ok s ∧
      let issues (roles : List String) := ((validate s .standard roles).run fieldPage pairWorld).1
      let resolved (role : String) := ((resolve s .standard role).run fieldPage pairWorld).1
      resolved "admin" = .ok ⟨"ada", "secret"⟩ ∧ (∀ m ∈ issues ["viewer", "admin", "viewer"], m.role ≠ "admin") ∧
      resolved "viewer" = .error (.missing "viewer" ["V", "Q"]) ∧
      (issues ["viewer"]).map MissingCredential.envVar = [some "V", some "Q"] ∧
      (issues ["viewer", "admin", "viewer"]).filter (·.role = "viewer") = issues ["viewer"] ++ issues ["viewer"] ∧
      resolved "ghost" = .error (.unknownRole "ghost" ["admin", "viewer"]) ∧
      issues ["ghost"] = [⟨"ghost", .unknownRole, none⟩] ∧
      ((Command.run (pairCheck ["admin"])).run.run fieldPage pairWorld).1 = .ok () ∧
      ((Command.run (pairCheck [])).run.run fieldPage pairWorld).1 ≠ .ok () := by
  have hread : ((Command.loadSettings "auth.config.json").run fieldPage pairWorld).1.toOption.any (fun s =>
      ((resolve s .standard "admin").run fieldPage pairWorld).1 = .ok ⟨"ada", "secret"⟩ ∧
      ((resolve s .standard "viewer").run fieldPage pairWorld).1 = .error (.missing "viewer" ["V", "Q"]) ∧
      ((resolve s .standard "ghost").run fieldPage pairWorld).1 =
        .error (.unknownRole "ghost" ["admin", "viewer"]) ∧
      s.roleNames = ["admin", "viewer"]) = true := by decide +kernel
  cases hs : ((Command.loadSettings "auth.config.json").run fieldPage pairWorld).1 with
  | error e =>
      rw [hs] at hread
      cases hread
  | ok s =>
      rw [hs] at hread
      obtain ⟨hadmin, hviewer, hghost, hnames⟩ := of_decide_eq_true hread
      obtain ⟨hroles, -, hcheck⟩ := preflight_agrees fieldPage s .standard .standard pairWorld pairWorld rfl
      obtain ⟨hnone, -, -, -⟩ := hroles ["viewer", "admin", "viewer"] "admin" (by decide)
      obtain ⟨-, htwice, hmissing, -⟩ := hroles ["viewer", "admin", "viewer"] "viewer" (by decide)
      obtain ⟨-, -, -, hunknown⟩ := hroles ["ghost"] "ghost" (by decide)
      obtain ⟨-, -, hone⟩ := hcheck (pairCheck ["admin"]) ["admin"] rfl hs
      obtain ⟨-, -, hboth⟩ := hcheck (pairCheck []) [] rfl hs
      have hcount : List.count "viewer" ["viewer", "admin", "viewer"] = 2 := by decide
      rw [hcount, List.replicate_succ, List.replicate_one, List.flatten_cons, List.flatten_singleton] at htwice
      refine ⟨s, rfl, hadmin, hnone.mpr ⟨_, hadmin⟩, hviewer, (hmissing _ _ hviewer).2.1, htwice, hghost,
        (hunknown _ _ hghost).2, hone.mpr fun role hrole => ?_, fun hok => ?_⟩
      · exact ⟨_, List.mem_singleton.mp hrole ▸ hadmin⟩
      · obtain ⟨c, hc⟩ := hboth.mp hok "viewer" (by rw [Command.selected, if_pos rfl, hnames]; decide)
        exact nomatch hviewer.symm.trans hc

end SignOn
