import SignOn.Proofs.Files
import SignOn.Proofs.Paths

/-! # Directories above a path

* `Path.parts_of_parent?`: the path that is left without its last part has the other parts, and starts where
  the whole path starts.
* `Disk.Above` are the places that the parts before the last one of a path lead to.  Without links, making the
  parent of a path with the directories that are missing changes such places alone
  (`Disk.above_of_makeDirectories`). -/

namespace SignOn

namespace Text

theorem toList_join (sep : String) (ps : List String) :
    (join sep ps).toList = sep.toList.intercalate (ps.map String.toList) := by
  induction ps with
  | nil => rfl
  | cons part rest ih =>
      cases rest with
      | nil => simp [join]
      | cons next rest =>
          rw [join, String.toList_append, String.toList_append, ih]
          · simp only [List.map_cons, List.intercalate_cons_cons]
          · exact List.cons_ne_nil next rest

theorem splitAt_intercalate {sep : Char} {parts : List (List Char)} (hne : parts ≠ [])
    (hparts : ∀ part ∈ parts, sep ∉ part) : splitAt sep ([sep].intercalate parts) = parts := by
  induction parts with
  | nil => exact absurd rfl hne
  | cons part rest ih =>
      rw [List.forall_mem_cons] at hparts
      cases rest with
      | nil =>
          rw [List.intercalate_singleton]
          exact splitAt_of_not_mem hparts.1
      | cons next rest =>
          rw [List.intercalate_cons_cons, List.append_assoc, List.singleton_append, splitAt_append_cons,
            splitAt_of_not_mem hparts.1, ih (List.cons_ne_nil next rest) hparts.2, List.singleton_append]

theorem splitAt_join {sep : String} {c : Char} (hsep : sep.toList = [c]) {ps : List String} (hne : ps ≠ [])
    (hps : ∀ part ∈ ps, c ∉ part.toList) : splitAt c (join sep ps).toList = ps.map String.toList := by
  rw [toList_join, hsep]
  apply splitAt_intercalate
  · simpa using hne
  · simpa using hps

theorem not_mem_of_mem_splitAt {sep : Char} {cs part : List Char} (h : part ∈ splitAt sep cs) : sep ∉ part := by
  induction cs generalizing part with
  | nil =>
      rw [splitAt, List.mem_singleton] at h
      simp [h]
  | cons c cs ih =>
      rw [splitAt] at h
      split at h
      · rcases List.mem_cons.mp h with rfl | h
        · exact List.not_mem_nil
        · exact ih h
      · next hc =>
          split at h
          · next hnil => exact absurd hnil (splitAt_ne_nil sep cs)
          · next first rest hsplit =>
              rw [hsplit] at ih
              rcases List.mem_cons.mp h with rfl | h
              · rw [List.mem_cons, not_or]
                exact ⟨Ne.symm hc, ih List.mem_cons_self⟩
              · exact ih (List.mem_cons_of_mem first h)

end Text

namespace Path

theorem not_mem_of_mem_rawParts {p part : String} (h : part ∈ rawParts p) : '/' ∉ part.toList := by
  obtain ⟨cs, hcs, rfl⟩ := List.mem_map.mp h
  rw [String.toList_ofList]
  exact Text.not_mem_of_mem_splitAt hcs

/-! ### Parts that are trimmed -/

theorem trimParts_initial (keep : Nat) (ps : List String) : trimParts keep ps <+: ps := by
  have hrest : ((ps.drop keep).reverse.dropWhile fun s => s = "" ∨ s = ".").reverse <+: ps.drop keep := by
    apply List.reverse_suffix.mp
    rw [List.reverse_reverse]
    exact List.dropWhile_suffix _
  have h := (List.prefix_append_right_inj (ps.take keep)).mpr hrest
  rwa [List.take_append_drop] at h

theorem filter_trimParts (keep : Nat) (ps : List String) :
    (trimParts keep ps).filter (fun s => s ≠ "" ∧ s ≠ ".") = ps.filter fun s => s ≠ "" ∧ s ≠ "." := by
  have hdropped : ((ps.drop keep).reverse.takeWhile fun s => s = "" ∨ s = ".").filter
      (fun s => s ≠ "" ∧ s ≠ ".") = [] := by
    apply List.filter_eq_nil_iff.mpr
    intro s hs hcounts
    have hblank := of_decide_eq_true (List.all_eq_true.mp List.all_takeWhile s hs)
    obtain ⟨hempty, hdot⟩ := of_decide_eq_true hcounts
    exact hblank.elim hempty hdot
  have hrest := congrArg (List.filter fun s => s ≠ "" ∧ s ≠ ".")
    (List.takeWhile_append_dropWhile (p := fun s => decide (s = "" ∨ s = ".")) (l := (ps.drop keep).reverse))
  rw [List.filter_append, hdropped, List.nil_append, List.filter_reverse] at hrest
  rw [trimParts, List.filter_append, List.filter_reverse, hrest, List.reverse_reverse, ← List.filter_append,
    List.take_append_drop]

/-- If more is left than what stays in any case, the last part that is left counts. -/
theorem getLast?_trimParts {keep : Nat} {ps : List String} (h : keep < (trimParts keep ps).length) :
    ∃ init part, trimParts keep ps = init ++ [part] ∧ part ≠ "" ∧ part ≠ "." := by
  rw [trimParts] at h ⊢
  cases hrest : (ps.drop keep).reverse.dropWhile (fun s => decide (s = "" ∨ s = ".")) with
  | nil =>
      have hlength := List.length_take_le keep ps
      rw [hrest, List.reverse_nil, List.append_nil] at h
      omega
  | cons part rest =>
      have hhead := List.head?_dropWhile_not (fun s => decide (s = "" ∨ s = ".")) (ps.drop keep).reverse
      rw [hrest] at hhead
      have hcounts := not_or.mp (of_decide_eq_false hhead)
      exact ⟨ps.take keep ++ rest.reverse, part, by rw [List.reverse_cons, List.append_assoc], hcounts⟩

/-! ### Parts and texts -/

theorem rawParts_ofParts {ps : List String} (hne : ps ≠ []) (hps : ∀ part ∈ ps, '/' ∉ part.toList)
    (hroot : ps ≠ [""]) : rawParts (ofParts ps) = ps := by
  rw [ofParts, rawParts, Text.split, Text.splitAt_join rfl hne hps, List.map_map]
  · exact List.map_id'' (fun s => String.ofList_toList) ps
  · exact hroot

theorem parts_ofParts {ps : List String} (hps : ∀ part ∈ ps, '/' ∉ part.toList) :
    parts (ofParts ps) = ps.filter fun s => s ≠ "" ∧ s ≠ "." := by
  by_cases hne : ps = []
  · subst hne
    decide
  · by_cases hroot : ps = [""]
    · subst hroot
      decide
    · rw [parts, rawParts_ofParts hne hps hroot]

theorem isAbsolute_eq {p : String} (hp : p ≠ "") : isAbsolute p = decide ((rawParts p).head? = some "") := by
  cases hcs : p.toList with
  | nil => exact absurd (String.toList_eq_nil_iff.mp hcs) hp
  | cons c cs =>
      rw [isAbsolute, rawParts, Text.split, hcs, Text.splitAt]
      by_cases hc : c = '/'
      · rw [if_pos hc, hc]
        rfl
      · rw [if_neg hc]
        split <;> simp [hc]

theorem isAbsolute_ofParts {ps : List String} (hps : ∀ part ∈ ps, '/' ∉ part.toList) :
    isAbsolute (ofParts ps) = decide (ps.head? = some "") := by
  cases ps with
  | nil => rfl
  | cons part rest =>
      by_cases hroot : part :: rest = [""]
      · rw [hroot]
        decide
      · have hraw := rawParts_ofParts (List.cons_ne_nil part rest) hps hroot
        have hne : ofParts (part :: rest) ≠ "" := by
          intro h
          rw [h] at hraw
          exact hroot hraw.symm
        rw [isAbsolute_eq hne, hraw]

theorem head?_of_initial {ps qs : List String} (h : ps <+: qs) {part : String} (hps : ps.head? = some part) :
    qs.head? = some part := by
  obtain ⟨rest, rfl⟩ := h
  rw [List.head?_append, hps]
  rfl

theorem head?_trimParts {ps : List String} (hps : ps.head? = some "") : (trimParts 1 ps).head? = some "" := by
  cases ps with
  | nil => cases hps
  | cons part rest =>
      obtain rfl : part = "" := Option.some.inj hps
      rfl

theorem fixedParts_eq_one {p : String} (hp : p ≠ "") (hroot : (rawParts p).head? = some "") :
    fixedParts (rawParts p) = 1 := by
  cases hraw : rawParts p with
  | nil =>
      rw [hraw] at hroot
      cases hroot
  | cons part rest =>
      rw [hraw] at hroot
      obtain rfl : part = "" := Option.some.inj hroot
      cases rest with
      | nil =>
          have hempty : rawParts p = rawParts "" := hraw.trans (by decide)
          exact absurd (rawParts_injective hempty) hp
      | cons next rest => rfl

/-- The parent of a path has all its parts but the last one, and starts at the root if the path does. -/
theorem parts_of_parent? {p q : String} (h : parent? p = some q) :
    parts q = (parts p).dropLast ∧ isAbsolute q = isAbsolute p := by
  have hp : p ≠ "" := by
    rintro rfl
    have hnone : parent? "" = none := by decide
    rw [hnone] at h
    cases h
  rw [isAbsolute_eq hp]
  unfold parent? at h
  dsimp only at h
  have htrimmed := trimParts_initial (fixedParts (rawParts p)) (rawParts p)
  have hcount := filter_trimParts (fixedParts (rawParts p)) (rawParts p)
  split at h
  · next hmore =>
      obtain ⟨init, part, hinit, hpart⟩ := getLast?_trimParts hmore
      rw [hinit] at htrimmed hcount
      obtain rfl := Option.some.inj h
      rw [hinit, List.dropLast_concat]
      have hinitial : trimParts (fixedParts (rawParts p)) init <+: rawParts p :=
        (trimParts_initial _ init).trans ((List.prefix_append init [part]).trans htrimmed)
      have hslash : ∀ s ∈ trimParts (fixedParts (rawParts p)) init, '/' ∉ s.toList :=
        fun s hs => not_mem_of_mem_rawParts (hinitial.subset hs)
      constructor
      · have hlast : [part].filter (fun s => s ≠ "" ∧ s ≠ ".") = [part] := by simp [hpart]
        rw [parts_ofParts hslash, filter_trimParts, parts, ← hcount, List.filter_append, hlast,
          List.dropLast_concat]
      · rw [isAbsolute_ofParts hslash, decide_eq_decide]
        refine ⟨head?_of_initial hinitial, fun hroot => ?_⟩
        have hfixed := fixedParts_eq_one hp hroot
        rw [hfixed] at hmore hinit ⊢
        apply head?_trimParts
        have hhead := head?_trimParts hroot
        rw [hinit] at hmore hhead
        cases init with
        | nil => simp at hmore
        | cons first init => exact hhead
  · split at h
    · next hdot =>
        obtain rfl := Option.some.inj h
        rw [hdot] at htrimmed hcount
        have hhead : (rawParts p).head? = some "." := head?_of_initial htrimmed rfl
        constructor
        · have hparts : parts p = [] := hcount.symm.trans (by decide)
          rw [hparts]
          decide
        · rw [hhead]
          decide
    · cases h

end Path

namespace Files

namespace Disk

variable {d d' : Disk} {now : Int} {path : String} {p : Place}

/-! ### Places on the way -/

/-- A place that the first parts of a path lead to. -/
def OnWay (d : Disk) (path : String) (p : Place) : Prop :=
  ∃ ps, ps <+: Path.parts path ∧ p = ps.foldl enter (if Path.isAbsolute path then [] else d.working)

/-- A place that the parts of a path lead to, the last part aside. -/
def Above (d : Disk) (path : String) (p : Place) : Prop :=
  ∃ ps, ps <+: (Path.parts path).dropLast ∧ p = ps.foldl enter (if Path.isAbsolute path then [] else d.working)

theorem onWay_goal (d : Disk) (path : String) : d.OnWay path (goal d.working path) :=
  ⟨Path.parts path, List.prefix_refl _, rfl⟩

theorem Above.onWay (h : d.Above path p) : d.OnWay path p := by
  obtain ⟨ps, hps, hp⟩ := h
  exact ⟨ps, hps.trans (List.dropLast_prefix _), hp⟩

theorem onWay_parent_iff {above : String} (h : Path.parent? path = some above) :
    d.OnWay above p ↔ d.Above path p := by
  obtain ⟨hparts, habsolute⟩ := Path.parts_of_parent? h
  rw [OnWay, Above, hparts, habsolute]

/-! ### Making directories -/

theorem eq_goal_of_makeDirectory (hd : d.tree.LinkFree) (h : d.makeDirectory now path = .ok d')
    (hp : d'.tree.get? p ≠ d.tree.get? p) : p = goal d.working path := by
  unfold makeDirectory at h
  cases hq : d.resolve false path with
  | error e =>
      rw [hq] at h
      cases h
  | ok q =>
      rw [hq] at h
      dsimp only at h
      split at h
      · cases h
      · cases h
        rw [← goal_of_resolve hd hq]
        exact Decidable.not_not.mp fun hne => hp (Tree.get?_set_of_ne _ hne)

theorem onWay_of_settled (hd : d.tree.LinkFree) {made : Except FileError Disk}
    (h : made = d.makeDirectory now path) (hp : (d.settled path made).1.tree.get? p ≠ d.tree.get? p) :
    d.OnWay path p := by
  cases made with
  | error e => exact absurd rfl hp
  | ok d' =>
      rw [eq_goal_of_makeDirectory hd h.symm hp]
      exact d.onWay_goal path

theorem onWay_of_makeDirectoriesFrom (fuel : Nat) (hd : d.tree.LinkFree)
    (hp : (makeDirectoriesFrom now fuel d path).1.tree.get? p ≠ d.tree.get? p) : d.OnWay path p := by
  induction fuel generalizing d path with
  | zero =>
      unfold makeDirectoriesFrom at hp
      split at hp
      · exact absurd rfl hp
      · split at hp
        · next h _ _ => cases h
        · exact absurd rfl hp
        · exact onWay_of_settled hd rfl hp
  | succ fuel ih =>
      unfold makeDirectoriesFrom at hp
      split at hp
      · exact absurd rfl hp
      · split at hp
        · next above h _ habove =>
            cases h
            have hgrown := grown_makeDirectoriesFrom now fuel d above
            have hfirst : (makeDirectoriesFrom now fuel d above).1.tree.get? p ≠ d.tree.get? p → d.OnWay path p :=
              fun h => ((onWay_parent_iff habove).mp (ih hd h)).onWay
            split at hp
            · next hmade =>
                rw [hmade] at hfirst
                exact hfirst hp
            · next d' hmade =>
                rw [hmade] at hfirst hgrown
                by_cases hsame : d'.tree.get? p = d.tree.get? p
                · rw [← hsame] at hp
                  have hlast := onWay_of_settled (hgrown.tree.linkFree hd) rfl hp
                  rwa [OnWay, hgrown.working] at hlast
                · exact hfirst hsame
        · exact absurd rfl hp
        · exact onWay_of_settled hd rfl hp

/-- Without links, making the parent of a path changes places above the path alone. -/
theorem above_of_makeDirectories (hd : d.tree.LinkFree)
    (hp : (d.makeDirectories now ((Path.parent? path).getD "")).1.tree.get? p ≠ d.tree.get? p) :
    d.Above path p := by
  cases habove : Path.parent? path with
  | none =>
      rw [habove] at hp
      exact absurd rfl hp
  | some above =>
      rw [habove] at hp
      exact (onWay_parent_iff habove).mp (onWay_of_makeDirectoriesFrom _ hd hp)

end Disk

end Files

end SignOn
