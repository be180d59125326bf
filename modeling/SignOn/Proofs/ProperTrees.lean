import SignOn.Proofs.Listing
import SignOn.Proofs.Parents
import SignOn.Proofs.Removals

/-! # Proper trees

A tree is `Tree.Proper` if it lists each place once, and the parts of a place are names.

* The names of a directory come in ascending order then, each once (`Tree.pairwise_names`).  Whatever is sorted by a
  key comes by key, and with the same key in the order that it had (`pairwise_mergeSort`).
* Paths lead to places whose parts are names (`Way.simple`), so that no operation on files lists a place twice or
  under anything else: what a plan leaves is proper as well (`Plan.proper_run`). -/

namespace SignOn

namespace Path

theorem simple_of_mem_parts {p part : String} (h : part ∈ parts p) (hup : part ≠ "..") : Simple part := by
  obtain ⟨hraw, hcounts⟩ := List.mem_filter.mp h
  obtain ⟨hempty, hdot⟩ := of_decide_eq_true hcounts
  have hslash := not_mem_of_mem_rawParts hraw
  refine ⟨hslash, fun other hother => ?_⟩
  rw [rawParts, Text.split, Text.splitAt_of_not_mem hslash, List.map_singleton, String.ofList_toList,
    List.mem_singleton] at hother
  subst hother
  exact ⟨hempty, hdot, hup⟩

end Path

/-! ### Sorting by a key -/

/-- The order of elements by a key. -/
def keyOrder {α : Type} (key : α → String) (a b : α) : Bool :=
  !decide (key b < key a)

section

variable {α : Type} {key : α → String} {a b c : α}

theorem keyOrder_iff : keyOrder key a b = true ↔ key a ≤ key b := by
  rw [keyOrder, Bool.not_eq_true', decide_eq_false_iff_not, not_lt]

theorem keyOrder_trans (a b c : α) (hab : keyOrder key a b = true) (hbc : keyOrder key b c = true) :
    keyOrder key a c = true := by
  rw [keyOrder_iff] at *
  exact hab.trans hbc

theorem keyOrder_total (a b : α) : (keyOrder key a b || keyOrder key b a) = true := by
  rw [Bool.or_eq_true, keyOrder_iff, keyOrder_iff]
  exact le_total (key a) (key b)

theorem filter_mergeSort (l : List α) (k : String) :
    (l.mergeSort (keyOrder key)).filter (key · = k) = l.filter (key · = k) := by
  have hsame : (l.filter (key · = k)).Pairwise fun a b => keyOrder key a b = true := by
    refine List.pairwise_of_forall_mem_list fun a ha b hb => ?_
    have hak : key a = k := of_decide_eq_true (List.mem_filter.mp ha).2
    have hbk : key b = k := of_decide_eq_true (List.mem_filter.mp hb).2
    rw [keyOrder_iff, hak, hbk]
  have hsub := (List.sublist_mergeSort keyOrder_trans keyOrder_total hsame List.filter_sublist).filter (key · = k)
  rw [List.filter_filter] at hsub
  simp only [Bool.and_self] at hsub
  exact (hsub.eq_of_length ((List.mergeSort_perm l _).symm.filter _).length_eq).symm

/-- Sorted by a key, elements come by key, and those of one key in the order that they had. -/
theorem pairwise_mergeSort (key : α → String) {S : α → α → Prop} {l : List α} (h : l.Pairwise S) :
    (l.mergeSort (keyOrder key)).Pairwise fun a b => key a < key b ∨ key a = key b ∧ S a b := by
  rw [List.pairwise_iff_forall_sublist]
  intro a b hab
  have hsorted : (l.mergeSort (keyOrder key)).Pairwise fun a b => keyOrder key a b = true :=
    List.pairwise_mergeSort keyOrder_trans keyOrder_total l
  have hle := keyOrder_iff.mp (List.pairwise_iff_forall_sublist.mp hsorted hab)
  refine hle.lt_or_eq.imp_right fun heq => ⟨heq, ?_⟩
  have hkeep := hab.filter (key · = key b)
  rw [filter_mergeSort, List.filter_cons, if_pos (decide_eq_true heq), List.filter_cons,
    if_pos (decide_eq_true rfl)] at hkeep
  exact List.pairwise_iff_forall_sublist.mp h (hkeep.trans List.filter_sublist)

theorem mergeSort_eq_of_pairwise (key : α → String) {S : α → α → Prop} (hS : ∀ a b, S a b → ¬ S b a) {l l' : List α}
    (h : l.Pairwise S) (h' : l'.Pairwise fun a b => key a < key b ∨ key a = key b ∧ S a b) (hperm : l.Perm l') :
    l.mergeSort (keyOrder key) = l' := by
  refine List.Perm.eq_of_pairwise (fun a b _ _ hab hba => ?_) (pairwise_mergeSort key h) h'
    ((List.mergeSort_perm l _).trans hperm)
  rcases hab with hab | ⟨heq, hab⟩
  · rcases hba with hba | ⟨heq, -⟩
    · exact absurd hab (lt_asymm hba)
    · exact absurd heq (ne_of_gt hab)
  · rcases hba with hba | ⟨-, hba⟩
    · exact absurd heq (ne_of_gt hba)
    · exact absurd hba (hS a b hab)

end

namespace Files

namespace Tree

variable {t : Tree} {p : Place} {name : String}

/-- The places of a tree are listed once each, and their parts are names. -/
structure Proper (t : Tree) : Prop where
  once : (t.map Prod.fst).Nodup
  simple : ∀ e ∈ t, ∀ part ∈ e.1, Path.Simple part

theorem mem_names_iff : name ∈ t.names p ↔ ∃ e, t.get? (p ++ [name]) = some e := by
  constructor
  · intro h
    rw [names, List.mem_mergeSort, List.mem_filterMap] at h
    obtain ⟨⟨q, e⟩, hmem, hlast⟩ := h
    obtain ⟨hin, hq⟩ := List.mem_filter.mp hmem
    obtain ⟨hne, hp⟩ := of_decide_eq_true hq
    obtain ⟨init, rfl⟩ := List.getLast?_eq_some_iff.mp hlast
    rw [List.dropLast_concat] at hp
    subst hp
    rw [get?_of_ne _ hne]
    cases hlookup : t.lookup (init ++ [name]) with
    | some e => exact ⟨e, rfl⟩
    | none =>
        have hnone := List.lookup_eq_none_iff.mp hlookup _ hin
        simp at hnone
  · rintro ⟨e, he⟩
    exact mem_names he

/-- The names of a directory come in ascending order, each once. -/
theorem pairwise_names (h : t.Proper) (p : Place) : (t.names p).Pairwise (· < ·) := by
  have hplaces : (t.filter fun e => e.1 ≠ [] ∧ e.1.dropLast = p).Pairwise fun e e' => e.1 ≠ e'.1 :=
    (List.pairwise_map.mp h.once).sublist List.filter_sublist
  have honce : ((t.filter fun e => e.1 ≠ [] ∧ e.1.dropLast = p).filterMap fun e => e.1.getLast?).Nodup := by
    refine List.pairwise_filterMap.mpr (hplaces.imp_of_mem fun {e e'} he he' hne n hn n' hn' heq => hne ?_)
    obtain ⟨-, hp⟩ := of_decide_eq_true (List.mem_filter.mp he).2
    obtain ⟨-, hp'⟩ := of_decide_eq_true (List.mem_filter.mp he').2
    obtain ⟨init, hinit⟩ := List.getLast?_eq_some_iff.mp hn
    obtain ⟨init', hinit'⟩ := List.getLast?_eq_some_iff.mp hn'
    rw [hinit, List.dropLast_concat] at hp
    rw [hinit', List.dropLast_concat] at hp'
    rw [hinit, hinit', hp, hp', heq]
  exact (pairwise_mergeSort id honce).imp fun hab => hab.resolve_right fun heq => heq.2 heq.1

theorem simple_of_mem_names (h : t.Proper) (hname : name ∈ t.names p) : Path.Simple name := by
  obtain ⟨e, he⟩ := mem_names_iff.mp hname
  have hne : p ++ [name] ≠ [] := List.concat_ne_nil name p
  exact h.simple _ (mem_of_get? hne he) name (by simp)

/-! ### What keeps trees proper -/

theorem Proper.erase (h : t.Proper) (p : Place) : (t.erase p).Proper where
  once := h.once.sublist (List.filter_sublist.map Prod.fst)
  simple e he := h.simple e (List.mem_of_mem_filter he)

theorem Proper.set (h : t.Proper) (hp : ∀ part ∈ p, Path.Simple part) (e : Entry) : (t.set p e).Proper where
  once := by
    rw [Tree.set, List.map_cons, List.nodup_cons]
    refine ⟨fun hmem => ?_, (h.erase p).once⟩
    obtain ⟨e', he', heq⟩ := List.mem_map.mp hmem
    exact of_decide_eq_true (List.mem_filter.mp he').2 heq
  simple e' he' := by
    rcases List.mem_cons.mp he' with rfl | he'
    · exact hp
    · exact (h.erase p).simple e' he'

end Tree

/-- A path leads to a place whose parts are names. -/
theorem Way.simple {t : Tree} {f : Bool} {q place : Place} {fuel links : Nat} {ps : List String}
    (h : Way t f q fuel links place ps) (hplace : ∀ part ∈ place, Path.Simple part)
    (hps : ∀ part ∈ ps, part ≠ ".." → Path.Simple part) : ∀ part ∈ q, Path.Simple part := by
  have hnext : ∀ {place : Place} {part : String}, (∀ part ∈ place, Path.Simple part) → Path.Simple part →
      ∀ part' ∈ place ++ [part], Path.Simple part' := by
    intro place part hplace hpart part' hpart'
    rcases List.mem_append.mp hpart' with hpart' | hpart'
    · exact hplace part' hpart'
    · rwa [List.mem_singleton.mp hpart']
  induction h with
  | here => exact hplace
  | up hdir h ih =>
      exact ih (fun part hpart => hplace part (List.dropLast_subset _ hpart))
        fun part hpart => hps part (List.mem_cons_of_mem _ hpart)
  | down hlook hdir h ih =>
      exact ih (hnext hplace (hps _ List.mem_cons_self hlook.notUp))
        fun part hpart => hps part (List.mem_cons_of_mem _ hpart)
  | last hlook hfile hq => exact hq ▸ hnext hplace (hps _ List.mem_cons_self hlook.notUp)
  | stop hlook hlink hstop hq => exact hq ▸ hnext hplace (hps _ List.mem_cons_self hlook.notUp)
  | through hlook hlink hon h ih =>
      refine ih ?_ fun part hpart hup => ?_
      · split
        · exact fun part hpart => absurd hpart List.not_mem_nil
        · exact hplace
      · rcases List.mem_append.mp hpart with hpart | hpart
        · exact Path.simple_of_mem_parts hpart hup
        · exact hps part (List.mem_cons_of_mem _ hpart) hup

namespace Disk

variable {d d' : Disk} {f : Bool} {path source target : String} {q : Place} {now : Int} {c : Content}

/-- The tree is proper, and the working directory stands at a place of names. -/
structure Proper (d : Disk) : Prop where
  tree : d.tree.Proper
  working : ∀ part ∈ d.working, Path.Simple part

namespace Proper

variable (h : d.Proper)

include h

theorem resolve (hq : d.resolve f path = .ok q) : ∀ part ∈ q, Path.Simple part := by
  refine (resolve_eq_ok_iff.mp hq).2.simple ?_ fun part => Path.simple_of_mem_parts
  split
  · exact fun part hpart => absurd hpart List.not_mem_nil
  · exact h.working

theorem write (hwrite : d.write now path c = .ok d') : d'.Proper := by
  obtain ⟨q, hq, -, rfl⟩ := write_eq_ok hwrite
  exact ⟨h.tree.set (h.resolve hq) _, h.working⟩

theorem remove (hremove : d.remove now path = .ok d') : d'.Proper := by
  obtain ⟨q, e, -, -, rfl⟩ := remove_eq_ok hremove
  exact ⟨h.tree.erase q, h.working⟩

theorem rename (hrename : d.rename now source target = .ok d') : d'.Proper := by
  obtain ⟨p, e, q, -, -, hq, -, rfl⟩ := rename_eq_ok hrename
  exact ⟨(h.tree.erase p).set (h.resolve hq) e, h.working⟩

theorem makeDirectory (hmake : d.makeDirectory now path = .ok d') : d'.Proper := by
  unfold Disk.makeDirectory at hmake
  split at hmake
  · cases hmake
  · next q hq =>
      split at hmake
      · cases hmake
      · obtain rfl := Except.ok.inj hmake
        exact ⟨h.tree.set (h.resolve hq) _, h.working⟩

theorem settled (now : Int) (path : String) : (d.settled path (d.makeDirectory now path)).1.Proper := by
  cases hmake : d.makeDirectory now path with
  | error e => exact h
  | ok d' => exact h.makeDirectory hmake

end Proper

theorem Proper.makeDirectoriesFrom (now : Int) (fuel : Nat) (h : d.Proper) (path : String) :
    (Disk.makeDirectoriesFrom now fuel d path).1.Proper := by
  induction fuel generalizing d path with
  | zero =>
      unfold Disk.makeDirectoriesFrom
      split
      · exact h
      · split
        · next hfuel _ _ => cases hfuel
        · exact h
        · exact h.settled now path
  | succ fuel ih =>
      unfold Disk.makeDirectoriesFrom
      split
      · exact h
      · split
        · next above hfuel _ _ =>
            cases hfuel
            have habove := ih h above
            split
            · next hmade =>
                rw [hmade] at habove
                exact habove
            · next hmade =>
                rw [hmade] at habove
                exact habove.settled now path
        · exact h
        · exact h.settled now path

end Disk

end Files

/-! ### Runs -/

namespace World

variable {σ : Type} (b : PageBehaviour σ)

theorem proper_fileStep (op : FileOp) {w : World σ} (h : w.disk.Proper) : (fileStep op w).2.disk.Proper := by
  cases op with
  | read | modified | names => exact h
  | write path content =>
      simp only [fileStep]
      split
      · next hok => exact h.write hok
      · exact h
  | rename source target =>
      simp only [fileStep]
      split
      · next hok => exact h.rename hok
      · exact h
  | remove path =>
      simp only [fileStep]
      split
      · next hok => exact h.remove hok
      · exact h
  | makeDirectories path =>
      have hmade := h.makeDirectoriesFrom w.wall path.length path
      simp only [fileStep, Files.Disk.makeDirectories]
      split
      · next heq => rw [heq] at hmade; exact hmade
      · next heq => rw [heq] at hmade; exact hmade

theorem proper_step (r : Request) {w : World σ} (h : w.disk.Proper) :
    (w.step b r).after.disk.Proper ∧ ∀ ms, ((w.step b r).abandoned ms).disk.Proper := by
  cases r with
  | file op => exact ⟨proper_fileStep op h, fun _ => proper_fileStep op h⟩
  | post p =>
      have hdisk := disk_step b (r := .post p) trivial w
      exact ⟨hdisk.1 ▸ h, fun ms => hdisk.2 ms ▸ h⟩
  | race m selector timeout =>
      have hdisk := disk_step b (r := .race m selector timeout) trivial w
      exact ⟨hdisk.1 ▸ h, fun ms => hdisk.2 ms ▸ h⟩
  | _ => exact ⟨h, fun _ => h⟩

end World

/-- Whatever a plan does, it leaves a proper disk if it finds one. -/
theorem Plan.proper_run {σ α : Type} (b : PageBehaviour σ) (p : Plan α) {w : World σ} (h : w.disk.Proper) :
    (p.run b w).2.disk.Proper :=
  p.obeys_true.invariant b (I := fun w => w.disk.Proper) (fun r _ _ hw => World.proper_step b r hw) h

end SignOn
