import SignOn.Proofs.Findings
import SignOn.Proofs.Independence
import SignOn.Proofs.Sweeps

/-! # Cleanups

* `Account` is what a cleanup does to a directory that can be read, and what it reports of it: each entry with the
  extension of sessions is accounted for once.
* `WaysApart`: no such entry stands on the way of another one, and `LeadsOut`: none leads to the directory itself,
  whose time changes with the first entry that is taken away.  The account follows from the directory at the start
  then (`Account.eq_map`).
* Behind a cleanup the next one finds nothing to take away (`cleanupAt_again`), and sessions that are valid are spared
  (`valid_of_cleanupAt`).
* `cleanupAt_spec` puts these together, and `survives_cleanup` is a link to the directory itself. -/

namespace SignOn.Store

open Files (Disk Place Tree)

section

variable {σ : Type} {b : PageBehaviour σ} {s : Store} {w w' : World σ} {maxAge : Nat} {now : Int} {report : Report}

/-- A directory that cannot be read leaves nothing to do; otherwise its files with the extension are swept. -/
theorem run_cleanupAt_cases (h : (s.cleanupAt maxAge now).run b w = (report, w')) :
    (∃ e, w.disk.names s.directory = .error e ∧ w'.disk = w.disk ∧
        report = if e = .notFound then {} else { errors := [s.directory ++ ": " ++ e.message] }) ∨
      ∃ names outcome, w.disk.names s.directory = .ok names ∧
        outcome.map Prod.fst = names.filter (Path.hasExtension · "json") ∧
        report = reportOf s.directory outcome ∧ Sweep s.directory maxAge now w.wall w.disk outcome w'.disk := by
  rw [cleanupAt, Plan.bind_eq] at h
  cases hnames : w.disk.names s.directory with
  | error e =>
      rw [Plan.run_bind_of_eq b (run_files_of_error b s w hnames)] at h
      refine .inl ⟨e, rfl, ?_⟩
      by_cases he : e = .notFound
      · subst he
        obtain ⟨rfl, rfl⟩ := Prod.mk.inj h
        exact ⟨rfl, rfl⟩
      · rw [if_neg he]
        dsimp only at h
        split at h
        · next heq => exact absurd (Except.error.inj heq) he
        · next heq =>
            obtain ⟨rfl, rfl⟩ := Prod.mk.inj h
            obtain rfl := Except.error.inj heq
            exact ⟨rfl, rfl⟩
        · next heq => cases heq
  | ok names =>
      rw [Plan.run_bind_of_eq b (run_files_of_ok b s w hnames)] at h
      obtain ⟨outcome, v, houtcome, hrun, hsweep⟩ :=
        run_sweepFiles b w maxAge now s.directory (names.filter (Path.hasExtension · "json"))
      refine .inr ⟨names, outcome, rfl, houtcome, ?_⟩
      dsimp only at h
      rw [Plan.bind_eq, Plan.run_bind_of_eq b hrun] at h
      split at h
      · obtain ⟨rfl, rfl⟩ := Prod.mk.inj h
        exact ⟨rfl, hsweep⟩
      · obtain ⟨rfl, rfl⟩ := Prod.mk.inj h
        exact ⟨rfl, hsweep⟩

end

/-- No file of sessions stands on the way of another one: where a name of the directory leads, links followed, no
other file or link of the directory with the extension is looked at. -/
def WaysApart (d : Disk) (directory : String) : Prop :=
  ∀ above, d.home directory = .ok above → ∀ name ∈ d.tree.names above, ∀ other ∈ d.tree.names above,
    Path.hasExtension name "json" = true → Path.hasExtension other "json" = true → other ≠ name →
      ¬ d.tree.HasDirectory (above ++ [other]) → above ++ [other] ∉ d.looked (Path.join directory name)

/-- No file of sessions leads to the directory itself, links followed. -/
def LeadsOut (d : Disk) (directory : String) : Prop :=
  ∀ above, d.home directory = .ok above → ∀ name ∈ d.tree.names above, Path.hasExtension name "json" = true →
    ¬ d.EndsAt (Path.join directory name) above

/-- The account of a cleanup of a directory that can be read, while the clock shows `stamp`.  `outcome` has what
becomes of each entry with the extension, once and in ascending order, as it is decided at its turn. -/
structure Account (directory : String) (maxAge : Nat) (now stamp : Int) (d d' : Disk) (above : Place)
    (outcome : List (String × Fate)) (report : Report) : Prop where
  home : d.home directory = .ok above
  files : outcome.map Prod.fst = (d.tree.names above).filter (Path.hasExtension · "json")
  ascending : (outcome.map Prod.fst).Pairwise (· < ·)
  turns : Sweep directory maxAge now stamp d outcome d'
  deleted : report.deleted = ((outcome.filter (·.2 = .goes)).map Prod.fst).map (Path.join directory)
  ordered : report.deleted.Pairwise fun p q => Path.parts p < Path.parts q
  errors : report.errors =
    outcome.filterMap fun x => x.2.error?.map fun e => Path.join directory x.1 ++ ": " ++ e.message
  gone : ∀ name, (name, Fate.goes) ∈ outcome → d'.tree.get? (above ++ [name]) = none
  kept : ∀ q, (∀ name, (name, Fate.goes) ∈ outcome → q ≠ above ++ [name]) → d'.tree.get? q = d.tree.get? q
  working : d'.working = d.working
  touched : ∀ r, r ≠ above → d'.touched.lookup r = d.touched.lookup r

section

variable {directory : String} {maxAge : Nat} {now stamp : Int} {d d' : Disk} {above : Place} {names : List String}
variable {outcome : List (String × Fate)} {report : Report}

theorem Sweep.account (hproper : d.tree.Proper) (hnames : d.names directory = .ok names)
    (houtcome : outcome.map Prod.fst = names.filter (Path.hasExtension · "json"))
    (hsweep : Sweep directory maxAge now stamp d outcome d') :
    ∃ above, names = d.tree.names above ∧
      Account directory maxAge now stamp d d' above outcome (reportOf directory outcome) := by
  obtain ⟨above, -, -, hhome, rfl⟩ := Disk.names_eq_ok hnames
  have hascending : (outcome.map Prod.fst).Pairwise (· < ·) :=
    houtcome ▸ (Tree.pairwise_names hproper above).sublist List.filter_sublist
  have hsimple : ∀ x ∈ outcome, Path.Simple x.1 := by
    intro x hx
    have hmem : x.1 ∈ outcome.map Prod.fst := List.mem_map_of_mem hx
    rw [houtcome] at hmem
    exact Tree.simple_of_mem_names hproper (List.mem_of_mem_filter hmem)
  have htree := hsweep.tree (.refl d) hhome hsimple
  have hpruned := hsweep.pruned (.refl d) hhome hsimple
  refine ⟨above, rfl, hhome, houtcome, hascending, hsweep, deleted_reportOf directory outcome, ?_,
    errors_reportOf directory outcome, fun name hname => ?_, fun q hq => ?_, hpruned.working, hpruned.touched⟩
  · rw [deleted_reportOf, List.pairwise_map]
    have hgoes : ((outcome.filter (·.2 = .goes)).map Prod.fst).Pairwise (· < ·) :=
      hascending.sublist (List.filter_sublist.map Prod.fst)
    refine hgoes.imp_of_mem fun {a b} ha hb hab => ?_
    obtain ⟨x, hx, rfl⟩ := List.mem_map.mp ha
    obtain ⟨y, hy, rfl⟩ := List.mem_map.mp hb
    rw [(hsimple x (List.mem_of_mem_filter hx)).parts_join, (hsimple y (List.mem_of_mem_filter hy)).parts_join]
    exact List.append_left_lt (List.Lex.rel hab)
  · rcases htree (above ++ [name]) with ⟨hnone, -⟩ | ⟨-, hother⟩
    · exact hnone
    · exact absurd rfl (hother name hname)
  · rcases htree q with ⟨-, name, hname, heq⟩ | ⟨hsame, -⟩
    · exact absurd heq (hq name hname)
    · exact hsame

namespace Account

variable (h : Account directory maxAge now stamp d d' above outcome report)

include h

theorem mem_names {x : String × Fate} (hx : x ∈ outcome) :
    x.1 ∈ d.tree.names above ∧ Path.hasExtension x.1 "json" = true := by
  have hmem : x.1 ∈ outcome.map Prod.fst := List.mem_map_of_mem hx
  rw [h.files] at hmem
  exact List.mem_filter.mp hmem

theorem simple (hproper : d.tree.Proper) {x : String × Fate} (hx : x ∈ outcome) : Path.Simple x.1 :=
  Tree.simple_of_mem_names hproper (h.mem_names hx).1

theorem leadsOut (hout : LeadsOut d directory) {x : String × Fate} (hx : x ∈ outcome) :
    ¬ d.EndsAt (Path.join directory x.1) above :=
  hout above h.home x.1 (h.mem_names hx).1 (h.mem_names hx).2

theorem fates (hproper : d.tree.Proper) (hapart : WaysApart d directory) (hout : LeadsOut d directory) :
    ∀ x ∈ outcome, x.2 = fate d maxAge now (Path.join directory x.1) := by
  intro x hx
  refine h.turns.fate_of_apart h.home (fun y hy => h.simple hproper hy) (h.ascending.imp ne_of_lt) hx
    (h.leadsOut hout hx) fun y hy => ?_
  exact hapart above h.home x.1 (h.mem_names hx).1 y.1 (h.mem_names hy).1 (h.mem_names hx).2 (h.mem_names hy).2

theorem eq_map (hproper : d.tree.Proper) (hapart : WaysApart d directory) (hout : LeadsOut d directory) :
    outcome = ((d.tree.names above).filter (Path.hasExtension · "json")).map fun name =>
      (name, fate d maxAge now (Path.join directory name)) := by
  rw [← h.files, List.map_map]
  refine (List.map_id outcome).symm.trans (List.map_congr_left fun x hx => ?_)
  exact Prod.ext rfl (h.fates hproper hapart hout x hx)

theorem mem_deleted_iff (hproper : d.tree.Proper) {name : String} (hname : Path.Simple name) :
    Path.join directory name ∈ report.deleted ↔ (name, Fate.goes) ∈ outcome := by
  rw [h.deleted]
  simp only [List.mem_map, List.mem_filter, decide_eq_true_eq]
  constructor
  · rintro ⟨_, ⟨⟨other, f⟩, ⟨hmem, rfl⟩, rfl⟩, hpath⟩
    have hother := h.simple hproper hmem
    have hparts := congrArg Path.parts hpath
    rw [hother.parts_join, hname.parts_join] at hparts
    obtain ⟨-, hnames⟩ := List.append_inj' hparts rfl
    obtain rfl : other = name := (List.cons.inj hnames).1
    exact hmem
  · intro hmem
    exact ⟨name, ⟨_, ⟨hmem, rfl⟩, rfl⟩, rfl⟩

end Account

end

section

variable {σ : Type} {b : PageBehaviour σ} {s : Store} {w w' v v' : World σ} {maxAge : Nat} {now : Int}
variable {report report' : Report}

theorem count_of_run_cleanupAt (h : (s.cleanupAt maxAge now).run b w = (report, w')) :
    report.count = report.deleted.length := by
  rcases run_cleanupAt_cases h with ⟨e, -, -, rfl⟩ | ⟨names, outcome, -, -, rfl, -⟩
  · split <;> rfl
  · exact count_reportOf s.directory outcome

theorem Sweep.eq_of_none {directory : String} {stamp : Int} {d d' : Disk} {outcome : List (String × Fate)}
    (hsweep : Sweep directory maxAge now stamp d outcome d') (hnone : ∀ x ∈ outcome, x.2 ≠ .goes) : d' = d := by
  induction hsweep with
  | done => rfl
  | step hturn hrest ih =>
      obtain ⟨-, rfl⟩ := hturn.2.resolve_left fun h => hnone _ List.mem_cons_self h.1
      exact ih fun x hx => hnone x (List.mem_cons_of_mem _ hx)

/-- Behind a cleanup the next one finds nothing to take away. -/
theorem cleanupAt_again (hproper : w.disk.tree.Proper) (hout : LeadsOut w.disk s.directory)
    (h : (s.cleanupAt maxAge now).run b w = (report, w')) (hv : v.disk = w'.disk)
    (h' : (s.cleanupAt maxAge now).run b v = (report', v')) : report'.deleted = [] ∧ v'.disk = v.disk := by
  rcases run_cleanupAt_cases h' with ⟨e', -, hdisk', rfl⟩ | ⟨names', outcome', hnames', houtcome', rfl, hsweep'⟩
  · exact ⟨by split <;> rfl, hdisk'⟩
  suffices hnone : ∀ x ∈ outcome', x.2 ≠ .goes by
    refine ⟨?_, hsweep'.eq_of_none hnone⟩
    rw [deleted_reportOf, List.filter_eq_nil_iff.mpr fun x hx hgoes => hnone x hx (of_decide_eq_true hgoes)]
    rfl
  rw [hv] at hnames' hsweep'
  rcases run_cleanupAt_cases h with ⟨e, hnames, hdisk, -⟩ | ⟨names, outcome, hnames, houtcome, -, hsweep⟩
  · rw [hdisk, hnames] at hnames'
    cases hnames'
  obtain ⟨above, rfl, haccount⟩ := hsweep.account hproper hnames houtcome
  obtain ⟨above', m, hentry', hhome', rfl⟩ := Disk.names_eq_ok hnames'
  obtain rfl : above = above' :=
    Except.ok.inj (haccount.home.symm.trans (hsweep.thinned.home hhome' ⟨m, (Disk.entry?_eq_ok.mp hentry').2⟩))
  have hswept : ∀ x ∈ outcome', ∃ y ∈ outcome, y.1 = x.1 := by
    intro x hx
    have hmem : x.1 ∈ outcome'.map Prod.fst := List.mem_map_of_mem hx
    rw [houtcome', List.mem_filter, Tree.mem_names_iff] at hmem
    obtain ⟨⟨e, he⟩, hext⟩ := hmem
    refine List.mem_map.mp ?_
    rw [haccount.files]
    exact List.mem_filter.mpr ⟨Tree.mem_names (hsweep.thinned.tree.get? he), hext⟩
  have hsimple' : ∀ x ∈ outcome', Path.Simple x.1 := by
    intro x hx
    obtain ⟨y, hy, hname⟩ := hswept x hx
    exact hname ▸ haccount.simple hproper hy
  intro x hx hgoes
  obtain ⟨y, hy, hname⟩ := hswept x hx
  have hleads : ¬ w.disk.EndsAt (Path.join s.directory x.1) above := hname ▸ haccount.leadsOut hout hy
  have hfate := (hsweep'.fates hhome' hsimple' hx fun hends => hleads (hsweep.thinned.endsAt hends)).resolve_right
    fun ⟨e, hfails⟩ => Fate.noConfusion (hgoes.symm.trans hfails)
  exact hsweep.not_goes haccount.home (fun z hz => haccount.simple hproper hz) hy (hname ▸ hleads)
    (hname ▸ hfate.symm.trans hgoes)

/-- A cleanup for an age that sessions may have anyway leaves each one that is valid: the entry that its path leads
to stands where it has stood, and so does a link that its path ends in. -/
theorem valid_of_cleanupAt (hproper : w.disk.tree.Proper) (h : (s.cleanupAt maxAge now).run b w = (report, w'))
    (hage : s.maxAge * 1000 ≤ maxAge) {path : String} (hvalid : ((s.isPathValidAt path now).run b w).1 = true) :
    path ∉ report.deleted ∧
      ∀ f q e, w.disk.entry? f path = .ok (q, e) → w'.disk.tree.get? q = some e := by
  obtain ⟨m, hm, hyoung, session, hreads⟩ := isPathValidAt_eq_true_iff.mp hvalid
  obtain ⟨c, hread, -⟩ := readSession_eq_ok_iff.mp hreads
  rcases run_cleanupAt_cases h with ⟨e, -, hdisk, rfl⟩ | ⟨names, outcome, hnames, houtcome, rfl, hsweep⟩
  · refine ⟨by split <;> exact List.not_mem_nil, fun f q e hentry => ?_⟩
    rw [hdisk]
    exact (Disk.entry?_eq_ok.mp hentry).2
  obtain ⟨above, rfl, haccount⟩ := hsweep.account hproper hnames houtcome
  constructor
  · intro hpath
    rw [deleted_reportOf, List.map_map, List.mem_map] at hpath
    obtain ⟨x, hx, rfl⟩ := hpath
    obtain ⟨hmem, hgoes⟩ := List.mem_filter.mp hx
    obtain ⟨before, after, d₁, d₂, -, hbefore, hturn, -⟩ := hsweep.split hmem
    obtain ⟨m', hm', hold, -⟩ := (fate_eq_goes_iff now).mp (hturn.1.symm.trans (of_decide_eq_true hgoes))
    obtain rfl := Except.ok.inj (hm.symm.trans (hbefore.thinned.modified_of_read hread hm'))
    omega
  · intro f q e hentry
    rw [haccount.kept q, (Disk.entry?_eq_ok.mp hentry).2]
    rintro name hgoes rfl
    obtain ⟨before, after, d₁, d₂, -, hbefore, hturn, -⟩ := hsweep.split hgoes
    obtain ⟨m', hm', hold, d, hremove⟩ := (fate_eq_goes_iff now).mp hturn.1.symm
    obtain ⟨above', habove', hdir, -, ⟨e', hentry'⟩, -⟩ := Disk.remove_join (haccount.simple hproper hgoes) hremove
    obtain rfl : above = above' :=
      Except.ok.inj (haccount.home.symm.trans (hbefore.thinned.home habove' hdir))
    obtain ⟨r, n, hfile⟩ := Disk.read_eq_ok hread
    obtain ⟨r', er', hleads, hno⟩ := Disk.modified_eq_ok hm'
    have hleads₀ := hbefore.thinned.entry?_eq hleads
    obtain rfl := Disk.leads_unique hentry (hbefore.thinned.entry?_eq hentry') hfile hleads₀
      (fun _ => Files.Entry.noConfusion) hno
    obtain rfl := Option.some.inj ((Disk.entry?_eq_ok.mp hleads₀).2.symm.trans (Disk.entry?_eq_ok.mp hfile).2)
    rw [Disk.modified, hleads] at hm'
    rw [Disk.modified, hfile] at hm
    obtain rfl := Except.ok.inj (hm.symm.trans hm')
    omega

end

/-- **What a cleanup does.**  A directory that is missing leaves an empty report, and one that cannot be read
otherwise a report with one error.  Of a directory that can be read, each entry with the extension of sessions is
accounted for once: it is young enough and stays, it is taken away and reported, or it stays under one error, as its
time cannot be told or it cannot be taken away.  Nothing else in the tree changes, but for the time of the directory.
What becomes of an entry is decided at its turn; if no entry with the extension stands on the way of another one or
leads to the directory itself, it is what the directory says at the start, and a second cleanup at the same time takes
nothing away.  A cleanup for an age that sessions may have anyway spares each session that is valid.  The tree is
proper, as all trees are that plans leave. -/
theorem cleanupAt_spec {s : Store} {σ : Type} {b : PageBehaviour σ} {w w' : World σ} {maxAge : Nat} {now : Int}
    {report : Report} (hproper : w.disk.tree.Proper) (h : (s.cleanupAt maxAge now).run b w = (report, w')) :
    report.count = report.deleted.length ∧
      (∀ e, w.disk.names s.directory = .error e → w'.disk = w.disk ∧
        report = if e = .notFound then {} else { errors := [s.directory ++ ": " ++ e.message] }) ∧
      (∀ names, w.disk.names s.directory = .ok names → ∃ above outcome, names = w.disk.tree.names above ∧
        Account s.directory maxAge now w.wall w.disk w'.disk above outcome report ∧
        (WaysApart w.disk s.directory → LeadsOut w.disk s.directory →
          (outcome = (names.filter (Path.hasExtension · "json")).map fun name =>
              (name, fate w.disk maxAge now (Path.join s.directory name))) ∧
            ∀ name ∈ names, Path.hasExtension name "json" = true →
              (Path.join s.directory name ∈ report.deleted ↔
                ∃ m d, w.disk.modified (Path.join s.directory name) = .ok m ∧ maxAge < age m now ∧
                  w.disk.remove w.wall (Path.join s.directory name) = .ok d))) ∧
      (LeadsOut w.disk s.directory → ∀ (v v' : World σ) report', v.disk = w'.disk →
        (s.cleanupAt maxAge now).run b v = (report', v') →
          report'.deleted = [] ∧ report'.count = 0 ∧ v'.disk = v.disk) ∧
      (s.maxAge * 1000 ≤ maxAge → ∀ path, ((s.isPathValidAt path now).run b w).1 = true →
        path ∉ report.deleted ∧
          ∀ f q e, w.disk.entry? f path = .ok (q, e) → w'.disk.tree.get? q = some e) := by
  refine ⟨count_of_run_cleanupAt h, fun e he => ?_, fun names hnames => ?_, fun hout v v' report' hv h' => ?_,
    fun hage path hvalid => valid_of_cleanupAt hproper h hage hvalid⟩
  · rcases run_cleanupAt_cases h with ⟨e', he', hcase⟩ | ⟨_, _, hnames, -⟩
    · obtain rfl := Except.error.inj (he.symm.trans he')
      exact hcase
    · cases he.symm.trans hnames
  · rcases run_cleanupAt_cases h with ⟨e, he, -⟩ | ⟨names', outcome, hnames', houtcome, rfl, hsweep⟩
    · cases he.symm.trans hnames
    obtain rfl := Except.ok.inj (hnames.symm.trans hnames')
    obtain ⟨above, hlist, haccount⟩ := hsweep.account hproper hnames houtcome
    subst hlist
    refine ⟨above, outcome, rfl, haccount, fun hapart hout => ?_⟩
    refine ⟨haccount.eq_map hproper hapart hout, fun name hname hext => ?_⟩
    have hfate : (name, Fate.goes) ∈ outcome ↔ fate w.disk maxAge now (Path.join s.directory name) = .goes := by
      constructor
      · intro hmem
        exact (haccount.fates hproper hapart hout _ hmem).symm
      · intro hgoes
        have hmem : name ∈ outcome.map Prod.fst := by
          rw [haccount.files]
          exact List.mem_filter.mpr ⟨hname, hext⟩
        obtain ⟨⟨other, f⟩, hx, hother⟩ := List.mem_map.mp hmem
        obtain rfl : other = name := hother
        obtain rfl : f = .goes := (haccount.fates hproper hapart hout _ hx).trans hgoes
        exact hx
    rw [haccount.mem_deleted_iff hproper (Tree.simple_of_mem_names hproper hname), hfate, fate_eq_goes_iff w.wall]
    constructor
    · rintro ⟨m, hm, hold, d, hremove⟩
      exact ⟨m, d, hm, hold, hremove⟩
    · rintro ⟨m, d, hm, hold, hremove⟩
      exact ⟨m, hm, hold, d, hremove⟩
  · obtain ⟨hnone, hdisk⟩ := cleanupAt_again hproper hout h hv h'
    refine ⟨hnone, ?_, hdisk⟩
    rw [count_of_run_cleanupAt h', hnone]
    rfl

/-- A directory with an old session, an old directory whose name has the extension, a link that leads nowhere, a young
session and an old file without the extension. -/
def attic : World Unit where
  page := ()
  disk.tree :=
    [([".auth-states"], .directory 0), ([".auth-states", "a.json"], .file (.text "") 0),
      ([".auth-states", "b.json"], .directory 0), ([".auth-states", "c.json"], .link "gone"),
      ([".auth-states", "d.json"], .file (.text (StoredSession.written {})) 4000000),
      ([".auth-states", "notes"], .file (.text "") 0)]

/-- An hour later the old session is taken away, the directory and the link are reported, and the young session
stays. -/
theorem cleanupAt_spec_attic :
    (attic.disk.tree.Proper ∧ WaysApart attic.disk ".auth-states" ∧ LeadsOut attic.disk ".auth-states" ∧
        shelfStore.maxAge * 1000 ≤ 3600000 ∧
        ((shelfStore.isPathValidAt ".auth-states/d.json" 7600000).run Manager.homePage attic).1 = true) ∧
      ∃ report w', (shelfStore.cleanupAt 3600000 7600000).run Manager.homePage attic = (report, w') ∧
        report = { count := 1, deleted := [".auth-states/a.json"]
                   errors := [".auth-states/b.json: Is a directory (os error 21)",
                     ".auth-states/c.json: No such file or directory (os error 2)"] } ∧
        (∀ v', (shelfStore.cleanupAt 3600000 7600000).run Manager.homePage w' =
            (((shelfStore.cleanupAt 3600000 7600000).run Manager.homePage w').1, v') → v'.disk = w'.disk) ∧
        ∀ f q e, attic.disk.entry? f ".auth-states/d.json" = .ok (q, e) → w'.disk.tree.get? q = some e := by
  have hproper : attic.disk.tree.Proper := by
    have hparts : ∀ e ∈ attic.disk.tree, ∀ part ∈ e.1, '/' ∉ part.toList ∧ 3 ≤ part.length := by decide +kernel
    exact ⟨by decide +kernel, fun e he part hpart => .of_length (hparts e he part hpart).1 (hparts e he part hpart).2⟩
  have hhome : attic.disk.home ".auth-states" = .ok [".auth-states"] := by decide +kernel
  have hlist : attic.disk.tree.names [".auth-states"] = ["a.json", "b.json", "c.json", "d.json", "notes"] :=
    List.mergeSort_of_pairwise (by decide +kernel)
  have hapart : WaysApart attic.disk ".auth-states" := by
    intro above habove
    obtain rfl := Except.ok.inj (hhome.symm.trans habove)
    rw [hlist]
    intro name hname other hother _ _ hne _
    have hways : ∀ name ∈ ["a.json", "b.json", "c.json", "d.json", "notes"],
        ∀ other ∈ ["a.json", "b.json", "c.json", "d.json", "notes"], other ≠ name →
          [".auth-states"] ++ [other] ∉ attic.disk.looked (Path.join ".auth-states" name) := by
      decide +kernel
    exact hways name hname other hother hne
  have hout : LeadsOut attic.disk ".auth-states" := by
    rintro above habove name hname - ⟨e, he⟩
    obtain rfl := Except.ok.inj (hhome.symm.trans habove)
    rw [hlist] at hname
    have hends : ∀ name ∈ ["a.json", "b.json", "c.json", "d.json", "notes"],
        attic.disk.resolve true (Path.join ".auth-states" name) ≠ .ok [".auth-states"] := by
      decide +kernel
    exact hends name hname (Disk.entry?_eq_ok.mp he).1
  have hage : shelfStore.maxAge * 1000 ≤ 3600000 := by decide +kernel
  have hvalid : ((shelfStore.isPathValidAt ".auth-states/d.json" 7600000).run Manager.homePage attic).1 = true := by
    decide +kernel
  obtain ⟨⟨count, deleted, errors⟩, hreport⟩ :
      ∃ r, ((shelfStore.cleanupAt 3600000 7600000).run Manager.homePage attic).1 = r := ⟨_, rfl⟩
  obtain ⟨w', hrun⟩ := Plan.exists_run_eq Manager.homePage hreport
  refine ⟨⟨hproper, hapart, hout, hage, hvalid⟩, _, w', hrun, ?_⟩
  obtain ⟨hcount, -, hswept, hagain, hspared⟩ := cleanupAt_spec hproper hrun
  have hnames : attic.disk.names ".auth-states" = .ok ["a.json", "b.json", "c.json", "d.json", "notes"] := by
    have hentry : attic.disk.entry? true ".auth-states" = .ok ([".auth-states"], .directory 0) := by decide +kernel
    rw [Disk.names, hentry]
    exact congrArg Except.ok hlist
  obtain ⟨above, outcome, -, haccount, hexact⟩ := hswept _ hnames
  have houtcome := (hexact hapart hout).1
  have hfates : outcome = [("a.json", .goes), ("b.json", .fails .isDirectory), ("c.json", .fails .notFound),
      ("d.json", .stays)] := by
    rw [houtcome]
    decide +kernel
  have hdeleted : deleted = [".auth-states/a.json"] := by
    have h := haccount.deleted
    rw [hfates] at h
    exact h
  have herrors : errors = [".auth-states/b.json: Is a directory (os error 21)",
      ".auth-states/c.json: No such file or directory (os error 2)"] := by
    have h := haccount.errors
    rw [hfates] at h
    exact h
  subst hdeleted herrors
  obtain rfl : count = 1 := hcount
  exact ⟨rfl, fun v' hv' => (hagain hout w' v' _ rfl hv').2.2, (hspared hage _ hvalid).2⟩

/-- A directory that has not been changed for long, with an old session and a link to the directory itself. -/
def loft : World Unit where
  page := ()
  epoch := 7600000
  disk.tree :=
    [([".auth-states"], .directory 0), ([".auth-states", "a.json"], .file (.text "") 0),
      ([".auth-states", "z.json"], .link ".")]

/-- The old session is taken away before the link is looked at.  The directory has just been changed then, so that the
link stays, though it has been as old as the session and could have been taken away. -/
theorem survives_cleanup :
    WaysApart loft.disk ".auth-states" ∧
      (∃ m d, loft.disk.modified ".auth-states/z.json" = .ok m ∧ 3600000 < age m 7600000 ∧
        loft.disk.remove loft.wall ".auth-states/z.json" = .ok d) ∧
      ((shelfStore.cleanupAt 3600000 7600000).run Manager.homePage loft).1 =
        { count := 1, deleted := [".auth-states/a.json"], errors := [] } := by
  have hhome : loft.disk.home ".auth-states" = .ok [".auth-states"] := by decide +kernel
  have hlist : loft.disk.tree.names [".auth-states"] = ["a.json", "z.json"] :=
    List.mergeSort_of_pairwise (by decide +kernel)
  have hnames : loft.disk.names shelfStore.directory = .ok ["a.json", "z.json"] := by
    have hentry : loft.disk.entry? true shelfStore.directory = .ok ([".auth-states"], .directory 0) := by
      decide +kernel
    rw [Disk.names, hentry]
    exact congrArg Except.ok hlist
  refine ⟨fun above habove => ?_, ?_, ?_⟩
  · obtain rfl := Except.ok.inj (hhome.symm.trans habove)
    rw [hlist]
    intro name hname other hother _ _ hne _
    have hways : ∀ name ∈ ["a.json", "z.json"], ∀ other ∈ ["a.json", "z.json"], other ≠ name →
        [".auth-states"] ++ [other] ∉ loft.disk.looked (Path.join ".auth-states" name) := by
      decide +kernel
    exact hways name hname other hother hne
  · exact ⟨0,
      loft.disk.changed (loft.disk.tree.erase [".auth-states", "z.json"]) loft.wall [[".auth-states", "z.json"]],
      by decide +kernel, by decide +kernel, by decide +kernel⟩
  · rw [cleanupAt, Plan.bind_eq, Plan.run_bind_of_eq _ (run_files_of_ok _ shelfStore loft hnames)]
    decide +kernel

end SignOn.Store
