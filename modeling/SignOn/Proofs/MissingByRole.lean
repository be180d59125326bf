import Mathlib.Data.List.Induction
import Mathlib.Data.List.Sort
import Mathlib.Data.String.Basic
import SignOn.Credentials

/-! # What is missing, by role

Issues are collected one by one in groups, one group for each role.

* `ascending_enter`, `mem_roles_enter` and `snd_enter` say what one more issue does to the groups.
* `ascending_byRole`, `mem_roles_byRole` and `snd_byRole` follow by induction over the issues: the groups are those of
  the roles that occur, in ascending order, and each of them holds the issues of its role in their order.
* `formatMissing_spec` says so of the text, and that nothing else of the issues shows in it. -/

namespace SignOn

variable {m : MissingCredential} {groups : List (String × List MissingCredential)}
variable {issues : List MissingCredential}

/-- The roles of groups stand in ascending order, each of them once. -/
def Ascending (groups : List (String × List MissingCredential)) : Prop :=
  (groups.map Prod.fst).Pairwise (· < ·)

/-- The issues of a role, in their order. -/
def issuesOf (issues : List MissingCredential) (role : String) : List MissingCredential :=
  issues.filter (·.role = role)

/-! ### One more issue -/

theorem mem_roles_enter {role : String} :
    role ∈ (m.enter groups).map Prod.fst ↔ role = m.role ∨ role ∈ groups.map Prod.fst := by
  induction groups with
  | nil => simp [MissingCredential.enter]
  | cons g groups ih =>
      rw [MissingCredential.enter]
      split_ifs with hlt heq
      · simp
      · simp [heq]
      · rw [List.map_cons, List.mem_cons, ih, List.map_cons, List.mem_cons, or_left_comm]

theorem ascending_enter (h : Ascending groups) : Ascending (m.enter groups) := by
  induction groups with
  | nil => exact List.pairwise_singleton _ _
  | cons g groups ih =>
      obtain ⟨hfirst, hrest⟩ := List.pairwise_cons.mp h
      rw [MissingCredential.enter]
      split_ifs with hlt heq
      · refine List.pairwise_cons.mpr ⟨fun role hrole => ?_, h⟩
        rcases List.mem_cons.mp hrole with rfl | hrole
        · exact hlt
        · exact hlt.trans (hfirst role hrole)
      · exact h
      · refine List.pairwise_cons.mpr ⟨fun role hrole => ?_, ih hrest⟩
        rcases mem_roles_enter.mp hrole with rfl | hrole
        · exact lt_of_le_of_ne (not_lt.mp hlt) (Ne.symm heq)
        · exact hfirst role hrole

/-- Each group holds what it has held, and that of the role holds the issue behind it. -/
theorem snd_enter {held : String → List MissingCredential} (h : Ascending groups)
    (hheld : ∀ g ∈ groups, g.2 = held g.1) (hnew : m.role ∉ groups.map Prod.fst → held m.role = []) :
    ∀ g ∈ m.enter groups, g.2 = held g.1 ++ if m.role = g.1 then [m] else [] := by
  induction groups with
  | nil =>
      intro g hg
      rw [List.mem_singleton.mp hg, hnew List.not_mem_nil, if_pos rfl, List.nil_append]
  | cons g groups ih =>
      obtain ⟨hfirst, hrest⟩ := List.pairwise_cons.mp h
      have hkeeps : ∀ g' ∈ g :: groups, m.role ≠ g'.1 →
          g'.2 = held g'.1 ++ if m.role = g'.1 then [m] else [] := by
        intro g' hg' hne
        rw [if_neg hne, List.append_nil, hheld g' hg']
      rw [MissingCredential.enter]
      split_ifs with hlt heq
      · have hbelow : ∀ g' ∈ g :: groups, m.role < g'.1 := by
          intro g' hg'
          rcases List.mem_cons.mp hg' with rfl | hg'
          · exact hlt
          · exact hlt.trans (hfirst g'.1 (List.mem_map_of_mem hg'))
        have hnone : m.role ∉ (g :: groups).map Prod.fst := by
          intro hmem
          obtain ⟨g', hg', heq⟩ := List.mem_map.mp hmem
          exact (hbelow g' hg').ne' heq
        refine List.forall_mem_cons.mpr ⟨?_, fun g' hg' => hkeeps g' hg' (hbelow g' hg').ne⟩
        rw [hnew hnone, if_pos rfl, List.nil_append]
      · refine List.forall_mem_cons.mpr ⟨?_, fun g' hg' => ?_⟩
        · rw [if_pos heq, ← hheld g List.mem_cons_self]
        · refine hkeeps g' (List.mem_cons_of_mem g hg') ?_
          rw [heq]
          exact (hfirst g'.1 (List.mem_map_of_mem hg')).ne
      · refine List.forall_mem_cons.mpr ⟨hkeeps g List.mem_cons_self heq, ?_⟩
        refine ih hrest (fun g' hg' => hheld g' (List.mem_cons_of_mem g hg')) fun hnone => hnew ?_
        rw [List.map_cons, List.mem_cons, not_or]
        exact ⟨heq, hnone⟩

/-! ### All issues -/

theorem byRole_concat (issues : List MissingCredential) (m : MissingCredential) :
    byRole (issues ++ [m]) = m.enter (byRole issues) :=
  List.foldl_concat _ _ _ _

theorem ascending_byRole (issues : List MissingCredential) : Ascending (byRole issues) := by
  induction issues using List.reverseRecOn with
  | nil => exact .nil
  | append_singleton issues m ih => exact byRole_concat issues m ▸ ascending_enter ih

theorem mem_roles_byRole {role : String} :
    role ∈ (byRole issues).map Prod.fst ↔ ∃ m ∈ issues, m.role = role := by
  induction issues using List.reverseRecOn with
  | nil => simp [byRole]
  | append_singleton issues m ih =>
      rw [byRole_concat, mem_roles_enter, ih]
      simp [or_comm, eq_comm, or_and_right, exists_or]

theorem snd_byRole : ∀ g ∈ byRole issues, g.2 = issuesOf issues g.1 := by
  induction issues using List.reverseRecOn with
  | nil => exact List.forall_mem_nil _
  | append_singleton issues m ih =>
      intro g hg
      have hnew : m.role ∉ (byRole issues).map Prod.fst → issuesOf issues m.role = [] := by
        intro hnone
        refine List.filter_eq_nil_iff.mpr fun m' hm' hrole => hnone ?_
        exact mem_roles_byRole.mpr ⟨m', hm', of_decide_eq_true hrole⟩
      rw [byRole_concat] at hg
      rw [snd_enter (ascending_byRole issues) ih hnew g hg, issuesOf, issuesOf, List.filter_append]
      by_cases h : m.role = g.1 <;> simp [h]

theorem roles_congr {issues' : List MissingCredential} (h : ∀ role, issuesOf issues role = issuesOf issues' role) :
    (byRole issues).map Prod.fst = (byRole issues').map Prod.fst := by
  have hoccurs (issues : List MissingCredential) (role : String) :
      role ∈ (byRole issues).map Prod.fst ↔ issuesOf issues role ≠ [] := by
    simp [mem_roles_byRole, issuesOf]
  refine List.Pairwise.eq_of_mem_iff (ascending_byRole issues) (ascending_byRole issues') fun role => ?_
  rw [hoccurs, hoccurs, h]

/-! ### The text -/

/-- The lines of a role: its name, and one line for each of its issues. -/
def paragraph (issues : List MissingCredential) (role : String) : String :=
  "\n  " ++ role ++ ":\n" ++ String.join ((issuesOf issues role).map MissingCredential.line)

theorem formatMissing_eq (issues : List MissingCredential) : formatMissing issues =
    if issues = [] then "All role credentials are set."
    else "Missing credentials for " ++ toString ((byRole issues).map Prod.fst).length ++ " role(s):\n" ++
      String.join (((byRole issues).map Prod.fst).map (paragraph issues)) := by
  have hgroups : ((byRole issues).map fun group =>
      "\n  " ++ group.1 ++ ":\n" ++ String.join (group.2.map MissingCredential.line)) =
        (byRole issues).map (paragraph issues ∘ Prod.fst) := by
    refine List.map_congr_left fun g hg => ?_
    rw [Function.comp, paragraph, ← snd_byRole g hg]
  rw [formatMissing, List.length_map, List.map_map, ← hgroups]

def IsLine (text : String) : Prop :=
  ∃ body : String, text = body ++ "\n" ∧ '\n' ∉ body.toList

namespace MissingCredential

theorem isLine_line (h : ∀ v, m.envVar = some v → '\n' ∉ v.toList) : IsLine m.line := by
  have hexport (v value : String) (hv : '\n' ∉ v.toList) (hvalue : '\n' ∉ value.toList) :
      IsLine ("    export " ++ v ++ value ++ "\n") := by
    refine ⟨_, rfl, ?_⟩
    simp [hv, hvalue]
  unfold line
  split
  next v _ hv => simpa [String.append_assoc] using hexport v "=\"<username>\"" (h v hv) (by decide)
  next v _ hv => simpa [String.append_assoc] using hexport v "=\"<password>\"" (h v hv) (by decide)
  next => exact ⟨"    role is not defined in the auth configuration", by decide, by decide⟩

theorem exists_line_eq {v : String} (hv : m.envVar = some v) (hknown : m.kind ≠ .unknownRole) :
    ∃ value, m.line = "    export " ++ v ++ "=\"" ++ value ++ "\"\n" := by
  unfold line
  rw [hv]
  cases hkind : m.kind with
  | unknownRole => exact absurd hkind hknown
  | username => exact ⟨"<username>", by simp [String.append_assoc]⟩
  | password => exact ⟨"<password>", by simp [String.append_assoc]⟩

end MissingCredential

/-- **What is missing is told role by role.**  The text counts the roles that occur, and lists them in ascending order,
each of them once; under a role stand its issues, all of them and no others, in their order.  Each issue has a line,
which names the variable to set if the issue is about one.  So the text depends on the issues of each role only, and not
on how those of different roles are mixed. -/
theorem formatMissing_spec (issues : List MissingCredential) :
    (∃ roles : List String, roles.Pairwise (· < ·) ∧ (∀ role, role ∈ roles ↔ ∃ m ∈ issues, m.role = role) ∧
      formatMissing issues =
        if issues = [] then "All role credentials are set."
        else "Missing credentials for " ++ toString roles.length ++ " role(s):\n" ++
          String.join (roles.map fun role =>
            "\n  " ++ role ++ ":\n" ++ String.join ((issues.filter (·.role = role)).map MissingCredential.line))) ∧
    (∀ m ∈ issues,
      ((∀ v, m.envVar = some v → '\n' ∉ v.toList) → IsLine m.line) ∧
      ∀ v, m.envVar = some v → m.kind ≠ .unknownRole →
        ∃ value, m.line = "    export " ++ v ++ "=\"" ++ value ++ "\"\n") ∧
    ∀ issues' : List MissingCredential,
      (∀ role, issues.filter (·.role = role) = issues'.filter (·.role = role)) →
        formatMissing issues = formatMissing issues' := by
  refine ⟨⟨_, ascending_byRole issues, fun _ => mem_roles_byRole, formatMissing_eq issues⟩, fun m _ => ?_,
    fun issues' h => ?_⟩
  · exact ⟨MissingCredential.isLine_line, fun v => MissingCredential.exists_line_eq⟩
  · have hroles := roles_congr h
    have hparagraphs : paragraph issues = paragraph issues' := by
      funext role
      rw [paragraph, paragraph, issuesOf, issuesOf, h]
    have hnone : issues = [] ↔ issues' = [] := by
      have hfirst (issues : List MissingCredential) : issues = [] ↔ (byRole issues).map Prod.fst = [] := by
        simp only [List.eq_nil_iff_forall_not_mem, mem_roles_byRole, not_exists, not_and]
        exact ⟨fun h role m hm => absurd hm (h m), fun h m hm => h m.role m hm rfl⟩
      rw [hfirst, hfirst, hroles]
    rw [formatMissing_eq, formatMissing_eq, hroles, hparagraphs]
    simp only [hnone]

/-- Issues of three roles, mixed. -/
def mixedIssues : List MissingCredential :=
  [⟨"viewer", .username, some "V_USER"⟩, ⟨"admin", .password, some "A_PASS"⟩, ⟨"ghost", .unknownRole, none⟩,
    ⟨"viewer", .password, some "V_PASS"⟩]

/-- The same issues, role by role. -/
def sortedIssues : List MissingCredential :=
  [⟨"admin", .password, some "A_PASS"⟩, ⟨"ghost", .unknownRole, none⟩, ⟨"viewer", .username, some "V_USER"⟩,
    ⟨"viewer", .password, some "V_PASS"⟩]

/-- They give one text, in which each variable has its line. -/
theorem formatMissing_spec_mixedIssues :
    formatMissing mixedIssues = formatMissing sortedIssues ∧
      ∃ value, MissingCredential.line ⟨"viewer", .password, some "V_PASS"⟩ =
        "    export " ++ "V_PASS" ++ "=\"" ++ value ++ "\"\n" := by
  obtain ⟨-, hlines, hsame⟩ := formatMissing_spec mixedIssues
  refine ⟨hsame sortedIssues fun role => ?_, (hlines _ (by decide)).2 "V_PASS" rfl (by decide)⟩
  by_cases hviewer : "viewer" = role
  · subst hviewer
    rfl
  · by_cases hadmin : "admin" = role
    · subst hadmin
      rfl
    · by_cases hghost : "ghost" = role <;> simp [mixedIssues, sortedIssues, hviewer, hadmin, hghost]

end SignOn
