import SignOn.Store.Basic

/-! # Names of stored sessions and their paths

* `Text.exists_splitAt_append`: what is appended to a text without a separator is appended to its
  last part.
* `Path.exists_parts_append`: so a path that grows by such an ending keeps its directory.
* `Path.parts_join`: a path below a directory has the parts of both.  For a name that is `Path.Plain` these
  are all the parts that it has.
* `Store.exists_toList_path`: the path of every role has the ending of sessions, whatever the
  pattern, the environment and the role are. -/

namespace SignOn

namespace Text

theorem splitAt_of_not_mem {sep : Char} {s : List Char} (h : sep ∉ s) : splitAt sep s = [s] := by
  induction s with
  | nil => rfl
  | cons c s ih =>
      rw [List.mem_cons, not_or] at h
      rw [splitAt, if_neg (Ne.symm h.1), ih h.2]

/-- An ending without a separator belongs to the last part. -/
theorem exists_splitAt_append (sep : Char) (x : List Char) :
    ∃ init last, ∀ s, sep ∉ s → splitAt sep (x ++ s) = init ++ [last ++ s] := by
  induction x with
  | nil => exact ⟨[], [], fun s h => splitAt_of_not_mem h⟩
  | cons c x ih =>
      obtain ⟨init, last, ih⟩ := ih
      by_cases hc : c = sep
      · refine ⟨[] :: init, last, fun s h => ?_⟩
        rw [List.cons_append, splitAt, if_pos hc, ih s h, List.cons_append]
      · cases init with
        | nil =>
            refine ⟨[], c :: last, fun s h => ?_⟩
            rw [List.cons_append, splitAt, if_neg hc, ih s h]
            rfl
        | cons part init =>
            refine ⟨(c :: part) :: init, last, fun s h => ?_⟩
            rw [List.cons_append, splitAt, if_neg hc, ih s h]
            rfl

theorem splitAt_ne_nil (sep : Char) (s : List Char) : splitAt sep s ≠ [] := by
  cases s with
  | nil => exact List.cons_ne_nil _ _
  | cons c s =>
      rw [splitAt]
      split
      · exact List.cons_ne_nil _ _
      · split <;> exact List.cons_ne_nil _ _

theorem splitAt_append_cons (sep : Char) (x s : List Char) :
    splitAt sep (x ++ sep :: s) = splitAt sep x ++ splitAt sep s := by
  induction x with
  | nil =>
      rw [List.nil_append, splitAt, splitAt, if_pos rfl]
      rfl
  | cons c x ih =>
      rw [List.cons_append, splitAt, splitAt, ih]
      split
      · rfl
      · cases hx : splitAt sep x with
        | nil => exact absurd hx (splitAt_ne_nil sep x)
        | cons part parts => rfl

theorem intercalate_splitAt (sep : Char) (s : List Char) : [sep].intercalate (splitAt sep s) = s := by
  induction s with
  | nil => rfl
  | cons c s ih =>
      rw [splitAt]
      cases hs : splitAt sep s with
      | nil => exact absurd hs (splitAt_ne_nil sep s)
      | cons part parts =>
          rw [hs] at ih
          split
          · next hc => rw [List.intercalate_cons_cons, ih, hc, List.nil_append, List.singleton_append]
          · cases parts with
            | nil =>
                rw [List.intercalate_singleton] at ih
                rw [List.intercalate_singleton, ih]
            | cons next parts =>
                rw [List.intercalate_cons_cons] at ih
                rw [List.intercalate_cons_cons, List.cons_append, List.cons_append, ih]

theorem exists_of_endsWith {s suffix : String} (h : endsWith s suffix = true) :
    ∃ x, s.toList = x ++ suffix.toList := by
  obtain ⟨r, hr⟩ := Option.isSome_iff_exists.mp h
  have hs := congrArg List.reverse (dropPrefix?_eq_some_iff.mp hr)
  rw [List.reverse_reverse, List.reverse_append, List.reverse_reverse] at hs
  exact ⟨r.reverse, hs⟩

theorem endsWith_append (s suffix : String) : endsWith (s ++ suffix) suffix = true := by
  rw [endsWith, String.toList_append, List.reverse_append, Option.isSome_iff_exists]
  exact ⟨s.toList.reverse, Text.dropPrefix?_eq_some_iff.mpr rfl⟩

end Text

namespace Path

/-- A path that grows by an ending of its last part keeps the parts before it. -/
theorem exists_parts_append (x : List Char) :
    ∃ init last, ∀ s, '/' ∉ s → 2 ≤ s.length →
      parts (String.ofList (x ++ s)) = init ++ [String.ofList (last ++ s)] := by
  obtain ⟨init, last, h⟩ := Text.exists_splitAt_append '/' x
  refine ⟨(init.map String.ofList).filter fun s => s ≠ "" ∧ s ≠ ".", last, fun s hs hlen => ?_⟩
  have hne : ∀ t : String, t.length < 2 → String.ofList (last ++ s) ≠ t := by
    intro t ht e
    rw [← e, String.length_ofList, List.length_append] at ht
    omega
  have h1 := hne "" (by decide)
  have h2 := hne "." (by decide)
  rw [parts, rawParts, Text.split, String.toList_ofList, h s hs, List.map_append, List.filter_append]
  congr 1
  exact List.filter_cons_of_pos (decide_eq_true ⟨h1, h2⟩)

theorem exists_toList_join (directory p : String) : ∃ x, (join directory p).toList = x ++ p.toList := by
  unfold join
  split
  · exact ⟨[], rfl⟩
  · split
    · exact ⟨directory.toList, String.toList_append⟩
    · exact ⟨(directory ++ "/").toList, String.toList_append⟩

theorem rawParts_injective {p q : String} (h : rawParts p = rawParts q) : p = q := by
  have hsplit : Text.splitAt '/' p.toList = Text.splitAt '/' q.toList :=
    (List.map_inj_right fun _ _ => String.ofList_injective).mp h
  have hchars := congrArg (List.intercalate ['/']) hsplit
  rw [Text.intercalate_splitAt, Text.intercalate_splitAt] at hchars
  exact String.toList_inj.mp hchars

theorem parts_empty : parts "" = [] := by decide

theorem parts_of_toList_eq {p : String} {x s : List Char} (h : p.toList = x ++ '/' :: s) :
    parts p = parts (String.ofList x) ++ parts (String.ofList s) := by
  simp only [parts, rawParts, Text.split, String.toList_ofList, h, Text.splitAt_append_cons, List.map_append,
    List.filter_append]

/-- The parts of a path below a directory are those of the directory, then its own. -/
theorem parts_join (directory : String) {p : String} (hp : isAbsolute p = false) :
    parts (join directory p) = parts directory ++ parts p := by
  unfold join
  rw [hp]
  split
  · next h => rw [h.resolve_left (by decide), parts_empty, List.nil_append]
  · split
    · next hlast =>
        obtain ⟨x, hx⟩ := List.getLast?_eq_some_iff.mp hlast
        have hpath : (directory ++ p).toList = x ++ '/' :: p.toList := by
          rw [String.toList_append, hx, List.append_assoc]
          rfl
        have hempty : parts (String.ofList []) = [] := parts_empty
        rw [parts_of_toList_eq hx, parts_of_toList_eq hpath, hempty, List.append_nil, String.ofList_toList]
    · have hpath : (directory ++ "/" ++ p).toList = directory.toList ++ '/' :: p.toList := by
        rw [String.toList_append, String.toList_append, List.append_assoc]
        rfl
      rw [parts_of_toList_eq hpath, String.ofList_toList, String.ofList_toList]

theorem isAbsolute_join (directory : String) {p : String} (hp : isAbsolute p = false) :
    isAbsolute (join directory p) = isAbsolute directory := by
  unfold join
  rw [hp]
  split
  · next h =>
      rw [hp, h.resolve_left (by decide)]
      rfl
  · next h =>
      have hne : directory.toList ≠ [] := fun hnil => h (.inr (String.toList_eq_nil_iff.mp hnil))
      obtain ⟨c, cs, hcs⟩ := List.exists_cons_of_ne_nil hne
      split
      · rw [isAbsolute, isAbsolute, String.toList_append, hcs]
        rfl
      · rw [isAbsolute, isAbsolute, String.toList_append, String.toList_append, hcs]
        rfl

/-! ### Plain names -/

/-- A name all of whose parts count, and none of which leads upwards. -/
def Plain (p : String) : Prop :=
  ∀ part ∈ rawParts p, part ≠ "" ∧ part ≠ "." ∧ part ≠ ".."

instance (p : String) : Decidable (Plain p) :=
  inferInstanceAs (Decidable (∀ part ∈ rawParts p, part ≠ "" ∧ part ≠ "." ∧ part ≠ ".."))

namespace Plain

variable {p : String} (h : Plain p)

include h

theorem parts_eq : parts p = rawParts p := by
  refine List.filter_eq_self.mpr fun part hpart => ?_
  obtain ⟨hempty, hdot, -⟩ := h part hpart
  exact decide_eq_true ⟨hempty, hdot⟩

theorem not_isAbsolute : isAbsolute p = false := by
  cases hp : p.toList with
  | nil => rw [isAbsolute, hp]; rfl
  | cons c cs =>
      rw [isAbsolute, hp]
      refine decide_eq_false fun hc => ?_
      obtain rfl := Option.some.inj hc
      have hmem : "" ∈ rawParts p := by
        rw [rawParts, Text.split, hp, Text.splitAt, if_pos rfl]
        exact List.mem_cons_self
      exact (h "" hmem).1 rfl

end Plain

end Path

namespace Store

theorem exists_toList_withEnding (name : String) : ∃ x, (withEnding name).toList = x ++ ending.toList := by
  unfold withEnding
  split
  · next h => exact Text.exists_of_endsWith h
  · exact ⟨name.toList, String.toList_append⟩

/-- The path of a role ends like the names of all sessions. -/
theorem exists_toList_path (s : Store) (role : String) :
    ∃ x, (s.path role).toList = x ++ ending.toList := by
  obtain ⟨x, hx⟩ := Path.exists_toList_join s.settings.directory (fileNameFor s.settings.filePattern s.env role)
  obtain ⟨y, hy⟩ := exists_toList_withEnding
    (Text.replaceAll (Text.replaceAll s.settings.filePattern rolePlace role) envPlace (s.env.getD defaultEnv))
  refine ⟨x ++ y, ?_⟩
  rw [List.append_assoc, ← hy]
  exact hx

/-- A session and the file that it is first written to stand in one directory, under names that differ
in their endings only. -/
theorem exists_parts_path (s : Store) (role : String) :
    ∃ init last,
      Path.parts (s.path role) = init ++ [String.ofList (last ++ ending.toList)] ∧
      Path.parts (temporary (s.path role)) = init ++ [String.ofList (last ++ (ending ++ ".tmp").toList)] := by
  obtain ⟨x, hx⟩ := exists_toList_path s role
  obtain ⟨init, last, h⟩ := Path.exists_parts_append x
  refine ⟨init, last, ?_, ?_⟩
  · rw [← h ending.toList (by decide) (by decide), ← hx, String.ofList_toList]
  · rw [← h (ending ++ ".tmp").toList (by decide) (by decide), String.toList_append, ← List.append_assoc,
      ← hx, ← String.toList_append, String.ofList_toList]
    rfl

end Store

end SignOn
