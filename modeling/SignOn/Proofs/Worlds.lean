import SignOn.Proofs.Files
import SignOn.Proofs.Plans

/-! # What requests do to the files

* `Request.LeavesFiles` holds of all requests but the four that change files; a plan of such requests
  leaves the disk as it is (`disk_run`).
* `World.Alike` says that two worlds differ in what has been logged at most, which is of no account to any
  plan (`run_of_alike`).
* `Request.Looks` holds of the requests that take no time and change nothing but logs.  What a plan of
  such requests sees of a world, its `World.SameView`, stays, and decides its value (`run_congr`).
* No request makes a link (`linkFree_run`), and none turns a clock back (`wall_le_run`). -/

namespace SignOn

/-! ### Requests -/

/-- Requests that change no file. -/
def Request.LeavesFiles : Request → Prop
  | .file (.write ..) | .file (.rename ..) | .file (.remove _) | .file (.makeDirectories _) => False
  | _ => True

/-- Requests that take no time and change nothing that could be looked at. -/
def Request.Looks : Request → Prop
  | .clock | .wallClock | .log .. | .env _ | .acquire _ | .release _ => True
  | .file (.read _) | .file (.modified _) | .file (.names _) => True
  | _ => False

/-- Requests that look at the wall clock and at files, and what is noted of it. -/
def Request.LooksAtFiles : Request → Prop
  | .wallClock | .log .. | .file (.read _) | .file (.modified _) | .file (.names _) => True
  | _ => False

theorem Request.LooksAtFiles.looks {r : Request} (h : r.LooksAtFiles) : r.Looks := by
  cases r with
  | file op => cases op <;> trivial
  | wallClock | log => trivial
  | _ => exact h.elim

theorem Request.Looks.leavesFiles {r : Request} (h : r.Looks) : r.LeavesFiles := by
  cases r with
  | file op => cases op <;> trivial
  | _ => trivial

namespace World

variable {σ : Type} (b : PageBehaviour σ)

/-! ### Operations on files -/

/-- The same world with another disk. -/
def withDisk (w : World σ) (d : Files.Disk) : World σ :=
  { w with disk := d }

@[simp] theorem disk_withDisk (w : World σ) (d : Files.Disk) : (w.withDisk d).disk = d := rfl

@[simp] theorem wall_withDisk (w : World σ) (d : Files.Disk) : (w.withDisk d).wall = w.wall := rfl

/-- An operation on a file depends on the disk and the wall clock, and changes the disk alone. -/
theorem fileStep_congr {v w : World σ} (hdisk : w.disk = v.disk) (hwall : w.wall = v.wall) (op : FileOp) :
    fileStep op w = ((fileStep op v).1, w.withDisk (fileStep op v).2.disk) := by
  cases op with
  | read | modified | names =>
      simp only [fileStep, ← hdisk]
      rfl
  | write path content =>
      simp only [fileStep, hdisk, hwall]
      cases v.disk.write v.wall path (.text content) with
      | ok d => rfl
      | error e => exact congrArg (Prod.mk _) (congrArg w.withDisk hdisk)
  | rename source target =>
      simp only [fileStep, hdisk, hwall]
      cases v.disk.rename v.wall source target with
      | ok d => rfl
      | error e => exact congrArg (Prod.mk _) (congrArg w.withDisk hdisk)
  | remove path =>
      simp only [fileStep, hdisk, hwall]
      cases v.disk.remove v.wall path with
      | ok d => rfl
      | error e => exact congrArg (Prod.mk _) (congrArg w.withDisk hdisk)
  | makeDirectories path =>
      simp only [fileStep, hdisk, hwall]
      generalize v.disk.makeDirectories v.wall path = made
      obtain ⟨d, failure⟩ := made
      cases failure <;> rfl

theorem fileStep_eq (op : FileOp) (w : World σ) : (fileStep op w).2 = w.withDisk (fileStep op w).2.disk :=
  congrArg Prod.snd (fileStep_congr rfl rfl op)

section

variable {w : World σ} {d : Files.Disk} {e : FileError} {path target content : String}

theorem fileStep_makeDirectories_ok (h : w.disk.makeDirectories w.wall path = (d, none)) :
    fileStep (.makeDirectories path) w = (.ok (), w.withDisk d) := by
  simp only [fileStep, h]
  rfl

theorem fileStep_makeDirectories_error (h : w.disk.makeDirectories w.wall path = (d, some e)) :
    fileStep (.makeDirectories path) w = (.error e, w.withDisk d) := by
  simp only [fileStep, h]
  rfl

theorem fileStep_write_ok (h : w.disk.write w.wall path (.text content) = .ok d) :
    fileStep (.write path content) w = (.ok (), w.withDisk d) := by
  simp only [fileStep, h]
  rfl

theorem fileStep_write_error (h : w.disk.write w.wall path (.text content) = .error e) :
    fileStep (.write path content) w = (.error e, w) := by
  simp only [fileStep, h]

theorem fileStep_rename_ok (h : w.disk.rename w.wall path target = .ok d) :
    fileStep (.rename path target) w = (.ok (), w.withDisk d) := by
  simp only [fileStep, h]
  rfl

theorem fileStep_rename_error (h : w.disk.rename w.wall path target = .error e) :
    fileStep (.rename path target) w = (.error e, w) := by
  simp only [fileStep, h]

end

theorem disk_step {r : Request} (h : r.LeavesFiles) (w : World σ) :
    (w.step b r).after.disk = w.disk ∧ ∀ ms, ((w.step b r).abandoned ms).disk = w.disk := by
  cases r with
  | file op => cases op <;> first | exact h.elim | exact ⟨rfl, fun _ => rfl⟩
  | post p =>
      simp only [step, postStep]
      cases w.server <;> exact ⟨rfl, fun _ => rfl⟩
  | _ => exact ⟨rfl, fun _ => rfl⟩

/-! ### Lines of the log -/

/-- The same world with other lines in its log. -/
def withLogs (w : World σ) (lines : List LogLine) : World σ :=
  { w with logs := lines }

/-- Two worlds that differ in what has been logged at most. -/
def Alike (v w : World σ) : Prop :=
  ∃ lines, w = v.withLogs lines

theorem Alike.refl (w : World σ) : Alike w w := ⟨w.logs, rfl⟩

theorem Alike.trans {u v w : World σ} (h : Alike u v) (h' : Alike v w) : Alike u w := by
  obtain ⟨_, rfl⟩ := h
  obtain ⟨lines, rfl⟩ := h'
  exact ⟨lines, rfl⟩

theorem Alike.advance {v w : World σ} (h : Alike v w) (ms : Nat) : Alike (v.advance ms) (w.advance ms) := by
  obtain ⟨lines, rfl⟩ := h
  exact ⟨lines, rfl⟩

theorem fileStep_withLogs (op : FileOp) (w : World σ) (lines : List LogLine) :
    fileStep op (w.withLogs lines) = ((fileStep op w).1, (fileStep op w).2.withLogs lines) := by
  have hlogged := fileStep_congr (v := w) (w := w.withLogs lines) rfl rfl op
  have hplain := congrArg (withLogs · lines) (fileStep_eq op w)
  exact hlogged.trans (congrArg (Prod.mk _) hplain.symm)

theorem step_withLogs (r : Request) (w : World σ) (lines : List LogLine) :
    ((w.withLogs lines).step b r).duration = (w.step b r).duration ∧
      ((w.withLogs lines).step b r).reply = (w.step b r).reply ∧
      Alike (w.step b r).after ((w.withLogs lines).step b r).after ∧
      ∀ ms, Alike ((w.step b r).abandoned ms) (((w.withLogs lines).step b r).abandoned ms) := by
  cases r with
  | file op =>
      simp only [step, fileStep_withLogs]
      exact ⟨rfl, rfl, ⟨lines, rfl⟩, fun ms => ⟨lines, rfl⟩⟩
  | post p =>
      have hserver : (w.withLogs lines).server = w.server := rfl
      simp only [step, postStep, hserver]
      cases w.server <;> exact ⟨rfl, rfl, ⟨lines, rfl⟩, fun ms => ⟨lines, rfl⟩⟩
  | _ => exact ⟨rfl, rfl, ⟨_, rfl⟩, fun ms => ⟨_, rfl⟩⟩

/-! ### Looking -/

/-- Two worlds that look the same: the same disk and environment at the same time. -/
structure SameView (v w : World σ) : Prop where
  disk : w.disk = v.disk
  environment : w.environment = v.environment
  now : w.now = v.now
  wall : w.wall = v.wall

theorem SameView.trans {u v w : World σ} (h : SameView u v) (h' : SameView v w) : SameView u w :=
  ⟨h'.disk.trans h.disk, h'.environment.trans h.environment, h'.now.trans h.now, h'.wall.trans h.wall⟩

theorem Alike.sameView {v w : World σ} (h : Alike v w) : SameView v w := by
  obtain ⟨lines, rfl⟩ := h
  exact ⟨rfl, rfl, rfl, rfl⟩

/-- A request that looks takes no time, and leaves a world that differs in the log at most. -/
theorem alike_step {r : Request} (h : r.Looks) (w : World σ) :
    Alike w (w.step b r).after ∧ (w.step b r).duration = 0 := by
  cases r with
  | file op => cases op <;> first | exact h.elim | exact ⟨.refl w, rfl⟩
  | clock | wallClock | env | acquire | release => exact ⟨.refl w, rfl⟩
  | log => exact ⟨⟨_, rfl⟩, rfl⟩
  | _ => exact h.elim

theorem inTime_of_looks {r : Request} (h : r.Looks) (w : World σ) (limit : Nat) :
    inTime w.now (w.step b r).duration limit = true := by
  rw [(alike_step b h w).2]
  simp [inTime]

theorem reply_congr {r : Request} (h : r.Looks) {v w : World σ} (hvw : SameView v w) :
    (w.step b r).reply = (v.step b r).reply := by
  cases r with
  | file op =>
      cases op with
      | read path => exact congrArg (·.read path) hvw.disk
      | modified path => exact congrArg (·.modified path) hvw.disk
      | names path => exact congrArg (·.names path) hvw.disk
      | _ => exact h.elim
  | env name => exact congrFun hvw.environment name
  | clock => exact hvw.now
  | wallClock => exact hvw.wall
  | log | acquire | release => rfl
  | _ => exact h.elim

/-! ### Links -/

theorem linkFree_fileStep (op : FileOp) {w : World σ} (h : w.disk.tree.LinkFree) :
    (fileStep op w).2.disk.tree.LinkFree := by
  cases op with
  | read | modified | names => exact h
  | write path content =>
      simp only [fileStep]
      split
      · next hok => exact Files.Disk.linkFree_write h hok
      · exact h
  | rename source target =>
      simp only [fileStep]
      split
      · next hok => exact Files.Disk.linkFree_rename h hok
      · exact h
  | remove path =>
      simp only [fileStep]
      split
      · next hok => exact Files.Disk.linkFree_remove h hok
      · exact h
  | makeDirectories path =>
      simp only [fileStep]
      split
      · next hmade => exact (Files.Disk.grown_of_makeDirectories hmade).tree.linkFree h
      · next hmade => exact (Files.Disk.grown_of_makeDirectories hmade).tree.linkFree h

theorem linkFree_step (r : Request) {w : World σ} (h : w.disk.tree.LinkFree) :
    (w.step b r).after.disk.tree.LinkFree ∧ ∀ ms, ((w.step b r).abandoned ms).disk.tree.LinkFree := by
  cases r with
  | file op => exact ⟨linkFree_fileStep op h, fun _ => linkFree_fileStep op h⟩
  | post p =>
      have hdisk := disk_step b (r := .post p) trivial w
      exact ⟨hdisk.1 ▸ h, fun ms => hdisk.2 ms ▸ h⟩
  | race m selector timeout =>
      have hdisk := disk_step b (r := .race m selector timeout) trivial w
      exact ⟨hdisk.1 ▸ h, fun ms => hdisk.2 ms ▸ h⟩
  | _ => exact ⟨h, fun _ => h⟩

/-! ### Time -/

theorem now_fileStep (op : FileOp) (w : World σ) : (fileStep op w).2.now = w.now := by
  have h := congrArg World.now (fileStep_eq op w)
  exact h

theorem now_step (r : Request) (w : World σ) :
    (w.step b r).after.now = w.now + (w.step b r).duration ∧
      ∀ ms, ((w.step b r).abandoned ms).now = w.now + ms := by
  cases r with
  | file op => simp [step, immediate, advance, now_fileStep]
  | post p =>
      simp only [step, postStep]
      cases w.server <;> simp [immediate, advance]
  | race m selector timeout => simp [step, raceStep, advance, noteCall]
  | _ => simp [step, callStep, immediate, advance, noteCall]

theorem now_le_step (r : Request) (w : World σ) :
    w.now ≤ (w.step b r).after.now ∧ ∀ ms, w.now ≤ ((w.step b r).abandoned ms).now := by
  obtain ⟨hafter, habandoned⟩ := now_step b r w
  constructor
  · omega
  · intro ms
    have := habandoned ms
    omega

theorem Frozen.wall_le {v w : World σ} (h : Frozen v w) (hnow : v.now ≤ w.now) : v.wall ≤ w.wall := by
  obtain ⟨-, hepoch, hstopped⟩ := h
  unfold wall
  rw [hepoch, hstopped]
  split <;> omega

theorem Frozen.wall_add {v w : World σ} (h : Frozen v w) (hgoes : v.wallStopped = false) {n : Nat}
    (hnow : w.now = v.now + n) : w.wall = v.wall + n := by
  obtain ⟨-, hepoch, hstopped⟩ := h
  have hw : w.wall = w.epoch + w.now := if_neg (by rw [hstopped, hgoes]; exact Bool.false_ne_true)
  have hv : v.wall = v.epoch + v.now := if_neg (by rw [hgoes]; exact Bool.false_ne_true)
  omega

theorem wall_advance {w : World σ} (h : w.wallStopped = false) (ms : Nat) : (w.advance ms).wall = w.wall + ms :=
  Frozen.wall_add (v := w) (w := w.advance ms) ⟨rfl, rfl, rfl⟩ h rfl

theorem wall_le_advance (w : World σ) (ms : Nat) : w.wall ≤ (w.advance ms).wall :=
  Frozen.wall_le ⟨rfl, rfl, rfl⟩ (Nat.le_add_right w.now ms)

end World

namespace Plan

variable {σ α : Type} (b : PageBehaviour σ) {Q : α → Prop}

theorem now_le_run (p : Plan α) (w : World σ) : w.now ≤ (p.run b w).2.now := by
  refine p.obeys_true.invariant b (I := fun v => w.now ≤ v.now) ?_ (Nat.le_refl _)
  intro r v _ hv
  obtain ⟨hafter, habandoned⟩ := World.now_le_step b r v
  constructor
  · exact Nat.le_trans hv hafter
  · intro ms
    exact Nat.le_trans hv (habandoned ms)

theorem wall_le_run (p : Plan α) (w : World σ) : w.wall ≤ (p.run b w).2.wall :=
  (frozen_run b p w).wall_le (now_le_run b p w)

/-- No plan makes a link. -/
theorem linkFree_run (p : Plan α) {w : World σ} (h : w.disk.tree.LinkFree) :
    (p.run b w).2.disk.tree.LinkFree :=
  p.obeys_true.invariant b (I := fun w => w.disk.tree.LinkFree)
    (fun r _ _ hw => World.linkFree_step b r hw) h

/-- A run comes to the same value whatever has been logged before it. -/
theorem run_of_alike (p : Plan α) {v w : World σ} (h : World.Alike v w) :
    (p.run b w).1 = (p.run b v).1 ∧ World.Alike (p.run b v).2 (p.run b w).2 := by
  induction p generalizing v w with
  | done a => exact ⟨rfl, h⟩
  | ask r next ih =>
      obtain ⟨lines, rfl⟩ := h
      obtain ⟨-, hreply, hafter, -⟩ := World.step_withLogs b r v lines
      rw [run_ask, run_ask, hreply]
      exact ih _ hafter
  | askBy limit r next ih =>
      obtain ⟨lines, rfl⟩ := h
      obtain ⟨hduration, hreply, hafter, habandoned⟩ := World.step_withLogs b r v lines
      have hnow : (v.withLogs lines).now = v.now := rfl
      simp only [run, hduration, hreply, hnow]
      split
      · exact ih _ hafter
      · exact ih _ (habandoned _)

namespace Obeys

theorem disk_run {p : Plan α} (h : p.Obeys Request.LeavesFiles Q) (w : World σ) :
    (p.run b w).2.disk = w.disk := by
  refine h.invariant b (I := fun v => v.disk = w.disk) (fun r v hr hv => ?_) rfl
  have hdisk := World.disk_step b hr v
  exact ⟨hdisk.1.trans hv, fun ms => (hdisk.2 ms).trans hv⟩

theorem alike_run {p : Plan α} (h : p.Obeys Request.Looks Q) (w : World σ) :
    World.Alike w (p.run b w).2 := by
  induction p generalizing w with
  | done a => exact .refl w
  | ask r next ih => exact (World.alike_step b h.1 w).1.trans (ih _ (h.2 _) _)
  | askBy limit r next ih =>
      rw [Plan.run, if_pos (World.inTime_of_looks b h.1 w limit)]
      exact (World.alike_step b h.1 w).1.trans (ih _ (h.2 _) _)

theorem sameView_run {p : Plan α} (h : p.Obeys Request.Looks Q) (w : World σ) :
    World.SameView w (p.run b w).2 :=
  (h.alike_run b w).sameView

/-- Worlds that look the same give a plan that only looks the same value. -/
theorem run_congr {p : Plan α} (h : p.Obeys Request.Looks Q) {v w : World σ} (hvw : World.SameView v w) :
    (p.run b w).1 = (p.run b v).1 := by
  have hafter : ∀ {r : Request}, r.Looks → ∀ {v w : World σ}, World.SameView v w →
      World.SameView (v.step b r).after (w.step b r).after := by
    intro r hr v w hvw
    have hv := (World.alike_step b hr v).1.sameView
    have hw := (World.alike_step b hr w).1.sameView
    have hback : World.SameView (v.step b r).after v :=
      ⟨hv.disk.symm, hv.environment.symm, hv.now.symm, hv.wall.symm⟩
    exact hback.trans (hvw.trans hw)
  induction p generalizing v w with
  | done a => rfl
  | ask r next ih =>
      rw [run_ask, run_ask, World.reply_congr b h.1 hvw]
      exact ih _ (h.2 _) (hafter h.1 hvw)
  | askBy limit r next ih =>
      rw [Plan.run, Plan.run, if_pos (World.inTime_of_looks b h.1 w limit),
        if_pos (World.inTime_of_looks b h.1 v limit), World.reply_congr b h.1 hvw]
      exact ih _ (h.2 _) (hafter h.1 hvw)

end Obeys

end Plan

end SignOn
