import SignOn.Proofs.ProperTrees
import SignOn.Proofs.Thinning

/-! # Sweeping a directory

What becomes of the files of a directory that a cleanup takes up one after the other.

* `Store.fate` is what a cleanup makes of a file.  While entries are taken from the directory it stays the same or
  turns into a failure (`fate_of_pruned`), and it stays the same if they do not stand on the way of the file
  (`fate_of_looked`).  A path that leads to the directory itself is left out of this: what is taken from a directory
  changes its time.
* `Store.Sweep` goes over files in turn, and `run_sweepFiles` says that cleanups are of this kind.  A sweep can be
  stopped at each file (`Sweep.split`).  It empties the places of the files that it takes away and no others
  (`Sweep.tree`), and behind it none of its files would be taken away (`Sweep.not_goes`). -/

namespace SignOn

namespace Files

namespace Disk

variable {d d' : Disk} {path path' directory name : String} {q r r' above : Place} {f : Bool} {e e' er er' : Entry}
variable {m now now' : Int} {c : Content}

theorem modified_eq_ok (h : d.modified path = .ok m) :
    ∃ r e, d.entry? true path = .ok (r, e) ∧ ∀ target, e ≠ .link target := by
  unfold modified at h
  split at h
  · cases h
  · next heq => exact ⟨_, _, heq, fun _ => Entry.noConfusion⟩
  · next heq => exact ⟨_, _, heq, fun _ => Entry.noConfusion⟩
  · cases h

theorem exists_modified (h : d.entry? true path = .ok (r, e)) (hno : ∀ target, e ≠ .link target) :
    ∃ m, d.modified path = .ok m := by
  rw [modified, h]
  cases e with
  | file c m => exact ⟨m, rfl⟩
  | directory m => exact ⟨_, rfl⟩
  | link target => exact absurd rfl (hno target)

theorem read_eq_ok (h : d.read path = .ok c) : ∃ r m, d.entry? true path = .ok (r, .file c m) := by
  unfold Disk.read at h
  split at h
  · cases h
  · next heq =>
      obtain rfl := Except.ok.inj h
      exact ⟨_, _, heq⟩
  · cases h
  · cases h

theorem names_eq_ok {names : List String} (h : d.names directory = .ok names) :
    ∃ above m, d.entry? true directory = .ok (above, .directory m) ∧ d.home directory = .ok above ∧
      names = d.tree.names above := by
  unfold Disk.names at h
  split at h
  · cases h
  · next above m hentry =>
      obtain rfl := Except.ok.inj h
      have hnamed : directory ≠ "" := by
        rintro rfl
        cases hentry
      refine ⟨above, m, hentry, ?_, rfl⟩
      rw [home, if_neg hnamed]
      exact (entry?_eq_ok.mp hentry).1
  · cases h

theorem modified_congr (h : d'.entry? true path = d.entry? true path)
    (htouched : ∀ r e, d.entry? true path = .ok (r, e) → d'.touched.lookup r = d.touched.lookup r) :
    d'.modified path = d.modified path := by
  rw [modified, modified, h]
  cases hentry : d.entry? true path with
  | error e => rfl
  | ok found =>
      obtain ⟨r, e⟩ := found
      cases e with
      | file c m => rfl
      | link target => rfl
      | directory m =>
          dsimp only
          rw [htouched r _ hentry]

theorem Thinned.exists_modified (h : d.Thinned d') (hm : d'.modified path = .ok m) :
    ∃ m₀, d.modified path = .ok m₀ := by
  obtain ⟨r, e, hentry, hno⟩ := modified_eq_ok hm
  exact Disk.exists_modified (h.entry?_eq hentry) hno

theorem Thinned.modified_of_read (h : d.Thinned d') (hread : d.read path = .ok c) (hm : d'.modified path = .ok m) :
    d.modified path = .ok m := by
  obtain ⟨r, n, hfile⟩ := read_eq_ok hread
  obtain ⟨r', e, hentry, -⟩ := modified_eq_ok hm
  obtain ⟨-, rfl⟩ := Prod.mk.inj (Except.ok.inj (hfile.symm.trans (h.entry?_eq hentry)))
  rw [modified, hentry] at hm
  rw [modified, hfile, ← hm]

/-- The path leads to an entry at the place, links followed. -/
def EndsAt (d : Disk) (path : String) (p : Place) : Prop :=
  ∃ e, d.entry? true path = .ok (p, e)

theorem Thinned.endsAt (h : d.Thinned d') (hends : d'.EndsAt path q) : d.EndsAt path q := by
  obtain ⟨e, he⟩ := hends
  exact ⟨e, h.entry?_eq he⟩

theorem Pruned.modified (h : d.Pruned above d') (hout : ¬ d.EndsAt path above)
    (hm : d'.modified path = .ok m) : d.modified path = .ok m := by
  obtain ⟨r, e, hentry, -⟩ := modified_eq_ok hm
  have hbefore := h.entry?_eq hentry
  rw [← hm]
  refine (modified_congr (hbefore.trans hentry.symm) fun r' e' hr' => (h.touched r' ?_).symm)
  rintro rfl
  exact hout ⟨e', h.entry?_eq hr'⟩

theorem remove_of_entry? (h : d.entry? false path = .ok (q, e)) (hno : ¬ d.tree.HasDirectory q) (now : Int) :
    d.remove now path = .ok (d.changed (d.tree.erase q) now [q]) := by
  rw [remove, h]
  cases e with
  | directory m => exact absurd ⟨m, (entry?_eq_ok.mp h).2⟩ hno
  | file c m => rfl
  | link target => rfl

theorem remove_at (h : d.remove now path = .ok d') (now' : Int) : ∃ d₁, d.remove now' path = .ok d₁ := by
  obtain ⟨q, e, hentry, hno, -⟩ := remove_eq_ok h
  exact ⟨_, remove_of_entry? hentry hno now'⟩

theorem remove_eq_error_iff {cause : FileError} : d.remove now path = .error cause ↔
    d.entry? false path = .error cause ∨
      cause = .isDirectory ∧ ∃ q m, d.entry? false path = .ok (q, .directory m) := by
  rw [remove]
  cases d.entry? false path with
  | error e => simp
  | ok found =>
      obtain ⟨q, e⟩ := found
      cases e <;> simp [eq_comm]

theorem Thinned.remove (h : d.Thinned d') {d'' : Disk} (hremove : d'.remove now path = .ok d'') :
    ∃ d₁, d.remove now path = .ok d₁ := by
  obtain ⟨q, e, hentry, hno, -⟩ := remove_eq_ok hremove
  exact ⟨_, remove_of_entry? (h.entry?_eq hentry) (fun hdir => hno (h.tree.keeps_directory hdir)) now⟩

theorem Thinned.home (h : d.Thinned d') (habove : d'.home directory = .ok above)
    (hdir : d'.tree.HasDirectory above) : d.home directory = .ok above := by
  unfold Disk.home at habove ⊢
  split at habove
  · next hempty => rw [if_pos hempty, ← h.working, habove]
  · next hempty =>
      rw [if_neg hempty]
      obtain ⟨m, hm⟩ := hdir
      exact (entry?_eq_ok.mp (h.entry?_eq (entry?_eq_ok.mpr ⟨habove, hm⟩))).1

theorem remove_join (hname : Path.Simple name) (h : d.remove now (Path.join directory name) = .ok d') :
    ∃ above, d.home directory = .ok above ∧ d.tree.HasDirectory above ∧ ¬ d.tree.HasDirectory (above ++ [name]) ∧
      (∃ e, d.entry? false (Path.join directory name) = .ok (above ++ [name], e)) ∧
      d' = d.changed (d.tree.erase (above ++ [name])) now [above ++ [name]] := by
  obtain ⟨q, e, hentry, hno, rfl⟩ := remove_eq_ok h
  obtain ⟨above, habove, hlook, hq⟩ := resolve_join hname (entry?_eq_ok.mp hentry).1
  obtain rfl : q = above ++ [name] := hq.resolve_right fun hfollow => Bool.false_ne_true hfollow.1
  exact ⟨above, habove, hlook.directory, hno, ⟨e, hentry⟩, rfl⟩

theorem leads_unique (hq : d.entry? f path = .ok (q, e)) (hq' : d.entry? false path' = .ok (q, e'))
    (hr : d.entry? true path = .ok (r, er)) (hr' : d.entry? true path' = .ok (r', er'))
    (hno : ∀ target, er ≠ .link target) (hno' : ∀ target, er' ≠ .link target) : r = r' := by
  obtain ⟨hresolve, he⟩ := entry?_eq_ok.mp hq
  obtain ⟨hresolve', he'⟩ := entry?_eq_ok.mp hq'
  obtain ⟨hrresolve, her⟩ := entry?_eq_ok.mp hr
  obtain ⟨hrresolve', her'⟩ := entry?_eq_ok.mp hr'
  obtain ⟨-, hway⟩ := resolve_eq_ok_iff.mp hresolve
  obtain ⟨-, hway'⟩ := resolve_eq_ok_iff.mp hresolve'
  obtain ⟨-, hrway⟩ := resolve_eq_ok_iff.mp hrresolve
  obtain ⟨-, hrway'⟩ := resolve_eq_ok_iff.mp hrresolve'
  by_cases hlink : ∃ target, d.tree.get? q = some (.link target)
  · obtain ⟨target, hlink⟩ := hlink
    have hne : r ≠ q := by
      rintro rfl
      exact hno target (Option.some.inj (her.symm.trans hlink))
    have hne' : r' ≠ q := by
      rintro rfl
      exact hno' target (Option.some.inj (her'.symm.trans hlink))
    cases f with
    | true => exact absurd (hway.unique hrway).symm hne
    | false =>
        obtain ⟨_, _, above, name, hq, hon⟩ := (hway.of_stop hlink hrway).resolve_left hne
        obtain ⟨_, _, above', name', hq', hon'⟩ := (hway'.of_stop hlink hrway').resolve_left hne'
        obtain ⟨rfl, hnames⟩ := List.append_inj' (hq.symm.trans hq') rfl
        rw [hnames] at hon
        exact hon.unique hon'
  · have hno : ∀ target, d.tree.get? q ≠ some (.link target) := fun target htarget => hlink ⟨target, htarget⟩
    rw [← (hway.follow hno).unique hrway, ← (hway'.follow hno).unique hrway']

end Disk

end Files

namespace Store

open Files (Disk Place Tree)

/-! ### What becomes of a file -/

/-- What a cleanup makes of a file: it stays if it is not old enough, and it fails if its time cannot be told or if it
is old enough and cannot be taken away. -/
inductive Fate where
  | stays
  | goes
  | fails (e : FileError)
deriving DecidableEq

/-- Why a file is left that is too old, or whose time cannot be told. -/
def Fate.error? : Fate → Option FileError
  | .fails e => some e
  | _ => none

section

variable {d d' d'' : Disk} {maxAge : Nat} {now stamp : Int} {path directory : String} {above : Place}

/-- What a cleanup makes of the file at a path. -/
def fate (d : Disk) (maxAge : Nat) (now : Int) (path : String) : Fate :=
  match d.modified path with
  | .error e => .fails e
  | .ok m =>
    if age m now ≤ maxAge then .stays
    else
      match d.remove now path with
      | .ok _ => .goes
      | .error e => .fails e

theorem fate_eq_goes_iff (stamp : Int) : fate d maxAge now path = .goes ↔
    ∃ m, d.modified path = .ok m ∧ maxAge < age m now ∧ ∃ d', d.remove stamp path = .ok d' := by
  unfold fate
  cases d.modified path with
  | error e => simp
  | ok m =>
      dsimp only
      by_cases hage : age m now ≤ maxAge
      · simp [hage]
      · rw [if_neg hage]
        cases hremove : d.remove now path with
        | ok d' => simp [Nat.not_le.mp hage, Disk.remove_at hremove stamp]
        | error e =>
            rw [Disk.remove_eq_error_iff, ← @Disk.remove_eq_error_iff _ _ stamp] at hremove
            simp [hremove]

theorem fate_eq_stays_iff :
    fate d maxAge now path = .stays ↔ ∃ m, d.modified path = .ok m ∧ age m now ≤ maxAge := by
  unfold fate
  cases d.modified path with
  | error e => simp
  | ok m =>
      dsimp only
      by_cases hage : age m now ≤ maxAge
      · simp [hage]
      · rw [if_neg hage]
        cases d.remove now path <;> simp [hage]

/-- What comes of a file that is left has come of it before entries were taken away. -/
theorem fate_of_pruned (h : d.Pruned above d') (hout : ¬ d.EndsAt path above) :
    fate d maxAge now path = fate d' maxAge now path ∨ ∃ e, fate d' maxAge now path = .fails e := by
  cases hfate : fate d' maxAge now path with
  | stays =>
      obtain ⟨m, hm, hage⟩ := fate_eq_stays_iff.mp hfate
      exact .inl (fate_eq_stays_iff.mpr ⟨m, h.modified hout hm, hage⟩)
  | goes =>
      obtain ⟨m, hm, hage, d'', hremove⟩ := (fate_eq_goes_iff now).mp hfate
      exact .inl ((fate_eq_goes_iff now).mpr ⟨m, h.modified hout hm, hage, h.remove hremove⟩)
  | fails e => exact .inr ⟨e, rfl⟩

theorem goes_of_pruned (h : d.Pruned above d') (hout : ¬ d.EndsAt path above)
    (hgoes : fate d' maxAge now path = .goes) : fate d maxAge now path = .goes := by
  rcases fate_of_pruned h hout with heq | ⟨e, hfails⟩
  · exact heq.trans hgoes
  · cases hgoes.symm.trans hfails

theorem not_goes_of_remove (h : d.remove stamp path = .ok d') (hthin : d'.Thinned d'') :
    fate d'' maxAge now path ≠ .goes := by
  intro hagain
  obtain ⟨q, e, hentry, hno, hd'⟩ := Disk.remove_eq_ok h
  obtain ⟨m, -, -, d₁, hremove⟩ := (fate_eq_goes_iff now).mp hagain
  obtain ⟨q', e', hentry', -, -⟩ := Disk.remove_eq_ok hremove
  have hleft := hthin.entry?_eq hentry'
  have hbefore := (Disk.thinned_remove h).entry?_eq hleft
  obtain ⟨rfl, -⟩ := Prod.mk.inj (Except.ok.inj (hentry.symm.trans hbefore))
  have hroot : q ≠ [] := fun hroot => hno ⟨0, hroot ▸ Tree.get?_nil d.tree⟩
  have hgone := (Disk.entry?_eq_ok.mp hleft).2
  rw [hd', Disk.changed_tree, Tree.get?_erase_self hroot] at hgone
  cases hgone

/-- Where nothing has changed that is looked at, the same comes of a file. -/
theorem fate_of_looked (h : d.Pruned above d') (hout : ¬ d.EndsAt path above)
    (hlooked : ∀ r ∈ d.looked path, d'.tree.get? r = d.tree.get? r) :
    fate d' maxAge now path = fate d maxAge now path := by
  have hentry := Disk.entry?_of_looked h.working hlooked
  have hmodified : d'.modified path = d.modified path := by
    refine Disk.modified_congr (hentry true) fun r e hr => h.touched r ?_
    rintro rfl
    exact hout ⟨e, hr⟩
  have hremove : ∀ e, d'.remove now path = .error e ↔ d.remove now path = .error e := fun e => by
    rw [Disk.remove_eq_error_iff, Disk.remove_eq_error_iff, hentry]
  unfold fate
  rw [hmodified]
  cases d.modified path with
  | error e => rfl
  | ok m =>
      dsimp only
      cases hr : d.remove now path with
      | error e => rw [(hremove e).mpr hr]
      | ok d₁ =>
          cases hr' : d'.remove now path with
          | error e => cases hr.symm.trans ((hremove e).mp hr')
          | ok d₁' => rfl

end

/-! ### Reports -/

/-- What a report says of a file. -/
def Fate.report (path : String) : Fate → Report
  | .stays => {}
  | .goes => { count := 1, deleted := [path] }
  | .fails e => { errors := [path ++ ": " ++ e.message] }

/-- What a report says of the files of a directory, by what has become of each. -/
def reportOf (directory : String) : List (String × Fate) → Report
  | [] => {}
  | (name, f) :: outcome =>
    let a := f.report (Path.join directory name)
    let b := reportOf directory outcome
    { count := a.count + b.count, deleted := a.deleted ++ b.deleted, errors := a.errors ++ b.errors }

theorem count_reportOf (directory : String) (outcome : List (String × Fate)) :
    (reportOf directory outcome).count = (reportOf directory outcome).deleted.length := by
  induction outcome with
  | nil => rfl
  | cons x outcome ih =>
      obtain ⟨name, f⟩ := x
      rw [reportOf]
      dsimp only
      rw [List.length_append, ih]
      cases f <;> rfl

theorem deleted_reportOf (directory : String) (outcome : List (String × Fate)) :
    (reportOf directory outcome).deleted =
      ((outcome.filter (·.2 = .goes)).map Prod.fst).map (Path.join directory) := by
  induction outcome with
  | nil => rfl
  | cons x outcome ih =>
      obtain ⟨name, f⟩ := x
      rw [reportOf]
      dsimp only
      rw [ih]
      cases f <;> simp [Fate.report]

theorem errors_reportOf (directory : String) (outcome : List (String × Fate)) :
    (reportOf directory outcome).errors =
      outcome.filterMap fun x => x.2.error?.map fun e => Path.join directory x.1 ++ ": " ++ e.message := by
  induction outcome with
  | nil => rfl
  | cons x outcome ih =>
      obtain ⟨name, f⟩ := x
      rw [reportOf]
      dsimp only
      rw [ih]
      cases f <;> rfl

/-! ### Sweeps -/

/-- The turn of a file in a cleanup while the clock shows `stamp`. -/
def Turn (directory : String) (maxAge : Nat) (now stamp : Int) (d : Disk) (x : String × Fate) (d' : Disk) : Prop :=
  x.2 = fate d maxAge now (Path.join directory x.1) ∧
    (x.2 = .goes ∧ d.remove stamp (Path.join directory x.1) = .ok d' ∨ x.2 ≠ .goes ∧ d' = d)

/-- A sweep over files of a directory, one after the other, with what becomes of each at its turn. -/
inductive Sweep (directory : String) (maxAge : Nat) (now stamp : Int) : Disk → List (String × Fate) → Disk → Prop
  | done {d : Disk} : Sweep directory maxAge now stamp d [] d
  | step {d d' d'' : Disk} {x : String × Fate} {outcome : List (String × Fate)}
      (hturn : Turn directory maxAge now stamp d x d') (hrest : Sweep directory maxAge now stamp d' outcome d'') :
      Sweep directory maxAge now stamp d (x :: outcome) d''

section

variable {σ : Type} (b : PageBehaviour σ) (w : World σ) (maxAge : Nat) (now : Int) (directory : String)

theorem run_sweepFile (name : String) : ∃ f w',
    (sweepFile (Path.join directory name) maxAge now).run b w = (f.report (Path.join directory name), w') ∧
      w'.wall = w.wall ∧ Turn directory maxAge now w.wall w.disk (name, f) w'.disk := by
  suffices h : ∃ w', (sweepFile (Path.join directory name) maxAge now).run b w =
      ((fate w.disk maxAge now (Path.join directory name)).report (Path.join directory name), w') ∧ w'.wall = w.wall ∧
        (fate w.disk maxAge now (Path.join directory name) = .goes ∧
            w.disk.remove w.wall (Path.join directory name) = .ok w'.disk ∨
          fate w.disk maxAge now (Path.join directory name) ≠ .goes ∧ w'.disk = w.disk) by
    obtain ⟨w', hrun, hwall, hturn⟩ := h
    exact ⟨_, w', hrun, hwall, rfl, hturn⟩
  unfold sweepFile fate
  rw [Plan.bind_eq, Plan.run_file, World.fileStep]
  cases w.disk.modified (Path.join directory name) with
  | error e => exact ⟨w, rfl, rfl, .inr ⟨Fate.noConfusion, rfl⟩⟩
  | ok m =>
      dsimp only
      by_cases hage : age m now ≤ maxAge
      · rw [if_pos hage, if_pos hage]
        exact ⟨w, rfl, rfl, .inr ⟨Fate.noConfusion, rfl⟩⟩
      · rw [if_neg hage, if_neg hage, Plan.bind_eq, Plan.run_file, World.fileStep]
        cases hremove : w.disk.remove w.wall (Path.join directory name) with
        | error e =>
            rw [Disk.remove_eq_error_iff, ← @Disk.remove_eq_error_iff _ _ now] at hremove
            rw [hremove]
            exact ⟨w, rfl, rfl, .inr ⟨Fate.noConfusion, rfl⟩⟩
        | ok d =>
            obtain ⟨d₁, hd₁⟩ := Disk.remove_at hremove now
            rw [hd₁]
            exact ⟨{ w with disk := d }, rfl, rfl, .inl ⟨rfl, rfl⟩⟩

theorem run_sweepFiles (names : List String) : ∃ outcome w', outcome.map Prod.fst = names ∧
    (sweepFiles maxAge now (names.map (Path.join directory))).run b w = (reportOf directory outcome, w') ∧
      Sweep directory maxAge now w.wall w.disk outcome w'.disk := by
  induction names generalizing w with
  | nil => exact ⟨[], w, rfl, rfl, .done⟩
  | cons name names ih =>
      obtain ⟨f, v, hfirst, hwall, hturn⟩ := run_sweepFile b w maxAge now directory name
      obtain ⟨outcome, w', hnames, hrest, hsweep⟩ := ih v
      refine ⟨(name, f) :: outcome, w', by simp [hnames], ?_, .step hturn (hwall ▸ hsweep)⟩
      rw [List.map_cons, sweepFiles, Plan.bind_eq, Plan.run_bind_of_eq b hfirst, Plan.bind_eq,
        Plan.run_bind_of_eq b hrest]
      rfl

end

section

variable {directory : String} {maxAge : Nat} {now stamp : Int} {d₀ d d' : Disk} {x : String × Fate}
variable {outcome : List (String × Fate)} {above : Place}

theorem Turn.thinned (h : Turn directory maxAge now stamp d x d') : d.Thinned d' := by
  rcases h.2 with ⟨-, hremove⟩ | ⟨-, rfl⟩
  · exact Disk.thinned_remove hremove
  · exact .refl d'

theorem Turn.cases (hthin : d₀.Thinned d) (habove : d₀.home directory = .ok above) (hname : Path.Simple x.1)
    (h : Turn directory maxAge now stamp d x d') :
    x.2 = .goes ∧ ¬ d.tree.HasDirectory (above ++ [x.1]) ∧
        d' = d.changed (d.tree.erase (above ++ [x.1])) stamp [above ++ [x.1]] ∨
      x.2 ≠ .goes ∧ d' = d := by
  refine h.2.imp (fun ⟨hgoes, hremove⟩ => ?_) id
  obtain ⟨above', habove', hdir, hno, -, hd'⟩ := Disk.remove_join hname hremove
  obtain rfl : above = above' := Except.ok.inj (habove.symm.trans (hthin.home habove' hdir))
  exact ⟨hgoes, hno, hd'⟩

namespace Sweep

theorem thinned (h : Sweep directory maxAge now stamp d outcome d') : d.Thinned d' := by
  induction h with
  | done => exact .refl _
  | step hturn hrest ih => exact hturn.thinned.trans ih

theorem pruned (hthin : d₀.Thinned d) (habove : d₀.home directory = .ok above) (hnames : ∀ x ∈ outcome, Path.Simple x.1)
    (h : Sweep directory maxAge now stamp d outcome d') : d.Pruned above d' := by
  induction h with
  | done => exact .refl _
  | step hturn hrest ih =>
      refine .trans ?_ (ih (hthin.trans hturn.thinned) fun x hx => hnames x (List.mem_cons_of_mem _ hx))
      rcases hturn.cases hthin habove (hnames _ List.mem_cons_self) with ⟨-, hno, rfl⟩ | ⟨-, rfl⟩
      · exact Disk.pruned_erase hno
      · exact .refl _

/-- A sweep empties the places of the files that it takes away, in the home of the directory, and no others. -/
theorem tree (hthin : d₀.Thinned d) (habove : d₀.home directory = .ok above) (hnames : ∀ x ∈ outcome, Path.Simple x.1)
    (h : Sweep directory maxAge now stamp d outcome d') (q : Place) :
    (d'.tree.get? q = none ∧ ∃ name, (name, Fate.goes) ∈ outcome ∧ q = above ++ [name]) ∨
      (d'.tree.get? q = d.tree.get? q ∧ ∀ name, (name, Fate.goes) ∈ outcome → q ≠ above ++ [name]) := by
  induction h with
  | done => exact .inr ⟨rfl, fun _ h => absurd h List.not_mem_nil⟩
  | @step d d' d'' x outcome hturn hrest ih =>
      have hafter := ih (hthin.trans hturn.thinned) fun x hx => hnames x (List.mem_cons_of_mem _ hx)
      rcases hafter with ⟨hnone, other, hother, hq⟩ | ⟨hsame, hother⟩
      · exact .inl ⟨hnone, other, List.mem_cons_of_mem _ hother, hq⟩
      obtain ⟨name, f⟩ := x
      rcases hturn.cases hthin habove (hnames _ List.mem_cons_self) with ⟨hgoes, -, rfl⟩ | ⟨hstays, rfl⟩
      · obtain rfl : f = .goes := hgoes
        by_cases hq : q = above ++ [name]
        · refine .inl ⟨?_, name, List.mem_cons_self, hq⟩
          rw [hsame, hq]
          exact Tree.get?_erase_self (List.concat_ne_nil name above)
        · refine .inr ⟨hsame.trans (Tree.get?_erase_of_ne hq), fun other hmem => ?_⟩
          rcases List.mem_cons.mp hmem with heq | hmem
          · rw [(Prod.mk.inj heq).1]
            exact hq
          · exact hother other hmem
      · refine .inr ⟨hsame, fun other hmem => ?_⟩
        rcases List.mem_cons.mp hmem with heq | hmem
        · exact absurd (Prod.mk.inj heq).2.symm hstays
        · exact hother other hmem

/-- A sweep can be stopped at each of its files. -/
theorem split (h : Sweep directory maxAge now stamp d outcome d') (hx : x ∈ outcome) :
    ∃ before after d₁ d₂, outcome = before ++ x :: after ∧ Sweep directory maxAge now stamp d before d₁ ∧
      Turn directory maxAge now stamp d₁ x d₂ ∧ Sweep directory maxAge now stamp d₂ after d' := by
  induction h with
  | done => exact absurd hx List.not_mem_nil
  | @step d d' d'' y outcome hturn hrest ih =>
      rcases List.mem_cons.mp hx with rfl | hx
      · exact ⟨[], outcome, d, d', rfl, .done, hturn, hrest⟩
      · obtain ⟨before, after, d₁, d₂, rfl, hbefore, hown, hafter⟩ := ih hx
        exact ⟨y :: before, after, d₁, d₂, rfl, .step hturn hbefore, hown, hafter⟩

section

variable (habove : d.home directory = .ok above) (hnames : ∀ x ∈ outcome, Path.Simple x.1)
variable (h : Sweep directory maxAge now stamp d outcome d')

include habove hnames h

/-- What comes of a file at its turn would have come of it at the start, unless it fails. -/
theorem fates (hx : x ∈ outcome) (hout : ¬ d.EndsAt (Path.join directory x.1) above) :
    x.2 = fate d maxAge now (Path.join directory x.1) ∨ ∃ e, x.2 = .fails e := by
  obtain ⟨before, after, d₁, d₂, rfl, hbefore, hturn, -⟩ := h.split hx
  have hpruned := hbefore.pruned (.refl d) habove fun y hy => hnames y (List.mem_append_left _ hy)
  rw [hturn.1]
  exact (fate_of_pruned hpruned hout).imp Eq.symm id

/-- Behind a sweep nothing is left of its files that would be taken away. -/
theorem not_goes (hx : x ∈ outcome) (hout : ¬ d.EndsAt (Path.join directory x.1) above) :
    fate d' maxAge now (Path.join directory x.1) ≠ .goes := by
  obtain ⟨before, after, d₁, d₂, rfl, hbefore, hturn, hafter⟩ := h.split hx
  rcases hturn.2 with ⟨-, hremove⟩ | ⟨hstays, rfl⟩
  · exact not_goes_of_remove hremove hafter.thinned
  · intro hagain
    have hpruned := hafter.pruned hbefore.thinned habove fun y hy =>
      hnames y (List.mem_append_right _ (List.mem_cons_of_mem _ hy))
    have hgoes := goes_of_pruned hpruned (fun hends => hout (hbefore.thinned.endsAt hends)) hagain
    exact hstays (hturn.1.trans hgoes)

/-- Where no file that is swept stands on the way of another one, there comes of a file what would have come of it at
the start. -/
theorem fate_of_apart (honce : (outcome.map Prod.fst).Nodup) (hx : x ∈ outcome)
    (hout : ¬ d.EndsAt (Path.join directory x.1) above)
    (hapart : ∀ y ∈ outcome, y.1 ≠ x.1 → ¬ d.tree.HasDirectory (above ++ [y.1]) →
      above ++ [y.1] ∉ d.looked (Path.join directory x.1)) :
    x.2 = fate d maxAge now (Path.join directory x.1) := by
  obtain ⟨before, after, d₁, d₂, rfl, hbefore, hturn, -⟩ := h.split hx
  have hsimple : ∀ y ∈ before, Path.Simple y.1 := fun y hy => hnames y (List.mem_append_left _ hy)
  rw [hturn.1]
  refine fate_of_looked (hbefore.pruned (.refl d) habove hsimple) hout fun r hr => ?_
  rcases hbefore.tree (.refl d) habove hsimple r with ⟨hnone, name, hname, rfl⟩ | ⟨hsame, -⟩
  · have hne : name ≠ x.1 := by
      rintro rfl
      rw [List.map_append, List.nodup_append] at honce
      exact honce.2.2 _ (List.mem_map_of_mem hname) _ (List.mem_map_of_mem List.mem_cons_self) rfl
    have hno : ¬ d.tree.HasDirectory (above ++ [name]) := by
      intro hdir
      obtain ⟨m, hm⟩ := hbefore.thinned.tree.keeps_directory hdir
      cases hnone.symm.trans hm
    exact absurd hr (hapart (name, .goes) (List.mem_append_left _ hname) hne hno)
  · exact hsame

end

end Sweep

end

end Store

end SignOn
