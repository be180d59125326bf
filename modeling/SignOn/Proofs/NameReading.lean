import SignOn.Proofs.Directories

/-! # Roles read off file names

* Filling a place takes the shortest text behind which the rest can be read (`fill_eq_some`), and it finds a text
  if there is one (`exists_fill`).
* `tellsRole` holds of the parts of a pattern if every text up to the one of the role is set apart from what
  follows: its end is the first place where the rest can go on.  Then the role is found where it was put
  (`roleAmong_fillings`).
* `Legible` collects what a role needs for that, and `roleOf?_of_legible` says that it is read off its own file
  name then.  The default pattern asks for no more than a text of one line without braces (`legible_default`). -/

namespace SignOn.Store

/-! ### Filling a place -/

section

variable {rest : List Char → Option (List (List Char))} {text u v : List Char} {texts : List (List Char)}

/-- A place takes the shortest text behind which the rest can be read. -/
theorem fill_eq_some (hu : u ≠ []) (hline : '\n' ∉ u) (hrest : rest v = some texts)
    (hshort : ∀ u₁ u₂, u = u₁ ++ u₂ → u₁ ≠ [] → u₂ ≠ [] → rest (u₂ ++ v) = none) :
    fill rest text (u ++ v) = some ((text ++ u) :: texts) := by
  induction u generalizing text with
  | nil => exact absurd rfl hu
  | cons c u ih =>
      rw [List.mem_cons, not_or] at hline
      rw [List.cons_append, fill, if_neg (Ne.symm hline.1)]
      cases u with
      | nil =>
          rw [List.nil_append, hrest]
      | cons d u =>
          have hlater := hshort [c] (d :: u) rfl (List.cons_ne_nil c []) (List.cons_ne_nil d u)
          rw [hlater]
          have hmore : ∀ u₁ u₂, d :: u = u₁ ++ u₂ → u₁ ≠ [] → u₂ ≠ [] → rest (u₂ ++ v) = none := by
            intro u₁ u₂ hsplit _ hu₂
            refine hshort (c :: u₁) u₂ ?_ (List.cons_ne_nil c u₁) hu₂
            rw [hsplit, List.cons_append]
          show fill rest (text ++ [c]) (d :: u ++ v) = _
          rw [ih (List.cons_ne_nil d u) hline.2 hmore, List.append_assoc, List.singleton_append]

/-- If there is a text for a place, one is found. -/
theorem exists_fill (hu : u ≠ []) (hline : '\n' ∉ u) (hrest : ∃ texts, rest v = some texts) :
    ∃ texts, fill rest text (u ++ v) = some texts := by
  induction u generalizing text with
  | nil => exact absurd rfl hu
  | cons c u ih =>
      rw [List.mem_cons, not_or] at hline
      rw [List.cons_append, fill, if_neg (Ne.symm hline.1)]
      split
      · exact ⟨_, rfl⟩
      · next hnone =>
          cases u with
          | nil =>
              obtain ⟨texts, htexts⟩ := hrest
              rw [List.nil_append, htexts] at hnone
              cases hnone
          | cons d u => exact ih (List.cons_ne_nil d u) hline.2

end

/-! ### Parts that are set apart -/

/-- A text that a place can stand for. -/
structure Fills (text : String) : Prop where
  ne_nil : text.toList ≠ []
  line : '\n' ∉ text.toList

instance (text : String) : Decidable (Fills text) :=
  decidable_of_iff (text.toList ≠ [] ∧ '\n' ∉ text.toList) ⟨fun h => ⟨h.1, h.2⟩, fun h => ⟨h.1, h.2⟩⟩

/-- Is a part a character of its own? -/
def Piece.isChar : Piece → Bool
  | .char _ => true
  | _ => false

/-- Do the parts behind a place set its text apart?  They begin with a character that is not in the text, or
there is no other place. -/
def setsApart (text : String) : List Piece → Bool
  | .char c :: ps => !text.toList.contains c || ps.all Piece.isChar
  | ps => ps.all Piece.isChar

theorem setsApart_of_chars {text : String} {ps : List Piece} (h : ps.all Piece.isChar = true) :
    setsApart text ps = true := by
  unfold setsApart
  split
  · rw [List.all_cons, Bool.and_eq_true] at h
    rw [h.2, Bool.or_true]
  · exact h

/-- Are the texts up to the one of the role set apart? -/
def tellsRole (env role : String) : List Piece → Bool
  | [] => false
  | .char _ :: ps => tellsRole env role ps
  | .env :: ps => setsApart env ps && tellsRole env role ps
  | .role :: ps => setsApart role ps

theorem length_of_fillings {ps : List Piece} (hps : ps.all Piece.isChar = true) {cs : List Char}
    {texts : List (List Char)} (h : fillings ps cs = some texts) : cs.length = ps.length := by
  induction ps generalizing cs with
  | nil =>
      rw [fillings] at h
      split at h
      · next hcs => simp [hcs]
      · cases h
  | cons p ps ih =>
      rw [List.all_cons, Bool.and_eq_true] at hps
      cases p with
      | role => exact absurd hps.1 Bool.false_ne_true
      | env => exact absurd hps.1 Bool.false_ne_true
      | char a =>
          cases cs with
          | nil => cases h
          | cons c cs =>
              rw [fillings] at h
              split at h
              · rw [List.length_cons, List.length_cons, ih hps.2 h]
              · cases h

section

variable {env role text : String} {ps : List Piece}

theorem length_flatMap_chars (hps : ps.all Piece.isChar = true) :
    (ps.flatMap (Piece.text env role)).length = ps.length := by
  induction ps with
  | nil => rfl
  | cons p ps ih =>
      rw [List.all_cons, Bool.and_eq_true] at hps
      cases p with
      | role => exact absurd hps.1 Bool.false_ne_true
      | env => exact absurd hps.1 Bool.false_ne_true
      | char c => rw [List.flatMap_cons, List.length_append, ih hps.2, List.length_cons, Nat.add_comm]; rfl

theorem fillings_eq_none (h : setsApart text ps = true) {u₁ u₂ : List Char} (htext : text.toList = u₁ ++ u₂)
    (hu₂ : u₂ ≠ []) : fillings ps (u₂ ++ ps.flatMap (Piece.text env role)) = none := by
  have hlong : ps.all Piece.isChar = true → fillings ps (u₂ ++ ps.flatMap (Piece.text env role)) = none := by
    intro hchars
    cases hread : fillings ps (u₂ ++ ps.flatMap (Piece.text env role)) with
    | none => rfl
    | some texts =>
        have hlength := length_of_fillings hchars hread
        have hpos := List.length_pos_iff.mpr hu₂
        rw [List.length_append, length_flatMap_chars hchars] at hlength
        omega
  cases ps with
  | nil => exact hlong rfl
  | cons p ps =>
      cases p with
      | role => exact hlong h
      | env => exact hlong h
      | char c =>
          rw [setsApart, Bool.or_eq_true] at h
          rcases h with hmiss | hchars
          · cases u₂ with
            | nil => exact absurd rfl hu₂
            | cons d u₂ =>
                have hne : c ≠ d := by
                  rintro rfl
                  simp [htext] at hmiss
                rw [List.cons_append, fillings, if_neg hne]
          · exact hlong hchars

theorem fill_place (htext : Fills text) (hapart : setsApart text ps = true) {texts : List (List Char)}
    (h : fillings ps (ps.flatMap (Piece.text env role)) = some texts) :
    fill (fillings ps) [] (text.toList ++ ps.flatMap (Piece.text env role)) = some (text.toList :: texts) :=
  fill_eq_some htext.ne_nil htext.line h fun _ _ hsplit _ hu₂ => fillings_eq_none hapart hsplit hu₂

/-! ### Names that can be read -/

theorem exists_fillings (hrole : .role ∈ ps → Fills role) (henv : .env ∈ ps → Fills env) :
    ∃ texts, fillings ps (ps.flatMap (Piece.text env role)) = some texts := by
  induction ps with
  | nil => exact ⟨[], rfl⟩
  | cons p ps ih =>
      have hrest := ih (fun h => hrole (List.mem_cons_of_mem p h)) fun h => henv (List.mem_cons_of_mem p h)
      rw [List.flatMap_cons]
      cases p with
      | char c =>
          obtain ⟨texts, htexts⟩ := hrest
          refine ⟨texts, ?_⟩
          show fillings (.char c :: ps) (c :: ps.flatMap (Piece.text env role)) = some texts
          rw [fillings, if_pos rfl, htexts]
      | role =>
          have hfills := hrole List.mem_cons_self
          exact exists_fill hfills.ne_nil hfills.line hrest
      | env =>
          have hfills := henv List.mem_cons_self
          exact exists_fill hfills.ne_nil hfills.line hrest

/-- Where the texts up to the one of the role are set apart, the role is found in the name. -/
theorem roleAmong_fillings (hrole : Fills role) (henv : .env ∈ ps → Fills env)
    (h : tellsRole env role ps = true) :
    ∃ texts, fillings ps (ps.flatMap (Piece.text env role)) = some texts ∧ roleAmong ps texts = some role := by
  induction ps with
  | nil => cases h
  | cons p ps ih =>
      have henv' : .env ∈ ps → Fills env := fun h => henv (List.mem_cons_of_mem p h)
      rw [List.flatMap_cons]
      cases p with
      | char c =>
          obtain ⟨texts, htexts, hfound⟩ := ih henv' h
          refine ⟨texts, ?_, hfound⟩
          show fillings (.char c :: ps) (c :: ps.flatMap (Piece.text env role)) = some texts
          rw [fillings, if_pos rfl, htexts]
      | env =>
          rw [tellsRole, Bool.and_eq_true] at h
          obtain ⟨texts, htexts, hfound⟩ := ih henv' h.2
          exact ⟨env.toList :: texts, fill_place (henv List.mem_cons_self) h.1 htexts, hfound⟩
      | role =>
          obtain ⟨texts, htexts⟩ := exists_fillings (fun _ => hrole) henv'
          refine ⟨role.toList :: texts, fill_place hrole h htexts, ?_⟩
          rw [roleAmong, String.ofList_toList]

end

/-! ### Patterns with the ending -/

/-- What a text without the last character of `p` is put behind does not complete a `p`. -/
theorem isSome_dropPrefix?_append {z : Char} {tail : List Char} (hz : z ∉ tail) (init xs : List Char) :
    (Text.dropPrefix? (init ++ [z]) (xs ++ tail)).isSome = (Text.dropPrefix? (init ++ [z]) xs).isSome := by
  rw [Bool.eq_iff_iff, Option.isSome_iff_exists, Option.isSome_iff_exists]
  constructor
  · rintro ⟨rest, hrest⟩
    rcases List.append_eq_append_iff.mp (Text.dropPrefix?_eq_some_iff.mp hrest) with ⟨a, ha, htail⟩ | ⟨a, ha, -⟩
    · cases a with
      | nil =>
          rw [List.append_nil] at ha
          exact ⟨[], Text.dropPrefix?_eq_some_iff.mpr (by rw [ha, List.append_nil])⟩
      | cons y a =>
          have hlast := congrArg List.getLast? ha
          rw [List.getLast?_concat, List.getLast?_append, List.getLast?_eq_some_getLast (List.cons_ne_nil y a)] at hlast
          have hz' : z = (y :: a).getLast (List.cons_ne_nil y a) := Option.some.inj hlast
          have hmem : z ∈ y :: a := hz' ▸ List.getLast_mem _
          exact absurd (htail ▸ List.mem_append_left rest hmem) hz
    · exact ⟨a, Text.dropPrefix?_eq_some_iff.mpr ha⟩
  · rintro ⟨rest, hrest⟩
    have hxs := Text.dropPrefix?_eq_some_iff.mp hrest
    exact ⟨rest ++ tail, Text.dropPrefix?_eq_some_iff.mpr (by rw [hxs, List.append_assoc])⟩

section

variable {tail : List Char} (htail : '\x7d' ∉ tail)

include htail

theorem isSome_rolePlace_append (xs : List Char) :
    (Text.dropPrefix? rolePlace.toList (xs ++ tail)).isSome = (Text.dropPrefix? rolePlace.toList xs).isSome :=
  isSome_dropPrefix?_append htail rolePlace.toList.dropLast xs

theorem isSome_envPlace_append (xs : List Char) :
    (Text.dropPrefix? envPlace.toList (xs ++ tail)).isSome = (Text.dropPrefix? envPlace.toList xs).isSome :=
  isSome_dropPrefix?_append htail envPlace.toList.dropLast xs

theorem piecesFrom_of_not_mem : piecesFrom 0 tail = tail.map Piece.char := by
  induction tail with
  | nil => rfl
  | cons c tail ih =>
      have hrole := isSome_rolePlace_append htail []
      have henv := isSome_envPlace_append htail []
      rw [List.nil_append] at hrole henv
      rw [List.mem_cons, not_or] at htail
      rw [piecesFrom, hrole, henv, ih htail.2]
      rfl

theorem startsPlace_append {c : Char} {cs : List Char} (h : ¬ StartsPlace (c :: cs)) :
    ¬ StartsPlace (c :: (cs ++ tail)) := by
  rw [StartsPlace, ← Text.isSome_dropPrefix?_iff, ← Text.isSome_dropPrefix?_iff] at *
  rwa [← List.cons_append, isSome_rolePlace_append htail, isSome_envPlace_append htail]

theorem piecesFrom_append (xs : List Char) : piecesFrom 0 (xs ++ tail) = piecesFrom 0 xs ++ tail.map Piece.char := by
  induction xs using pattern_induction with
  | nil => exact piecesFrom_of_not_mem htail
  | role rest ih => rw [List.append_assoc, piecesFrom_rolePlace, piecesFrom_rolePlace, ih, List.cons_append]
  | env rest ih => rw [List.append_assoc, piecesFrom_envPlace, piecesFrom_envPlace, ih, List.cons_append]
  | char c rest hplace ih =>
      rw [List.cons_append, piecesFrom_char (startsPlace_append htail hplace), piecesFrom_char hplace, ih,
        List.cons_append]

end

theorem filled_append_ending (pattern env role : String) :
    filled (pattern ++ ending) env role = filled pattern env role ++ ending := by
  have hchars : ∀ cs : List Char, (cs.map Piece.char).flatMap (Piece.text env role) = cs := by
    intro cs
    induction cs with
    | nil => rfl
    | cons c cs ih => rw [List.map_cons, List.flatMap_cons, ih]; rfl
  apply String.toList_inj.mp
  rw [filled, filled, pieces, pieces, String.toList_append, piecesFrom_append (by decide), List.flatMap_append,
    hchars, String.toList_ofList, String.toList_append, String.toList_ofList]

/-- The file name of a role is its pattern, with the ending, filled at once, unless the ending comes from the role
or the environment. -/
theorem fileNameFor_eq_filled {pattern role : String} {env : Option String} (honce : FillsAtOnce pattern env role)
    (hending : Text.endsWith pattern ending = true ∨ Text.endsWith (bareName pattern env role) ending = false) :
    fileNameFor pattern env role = filled (withEnding pattern) (env.getD defaultEnv) role := by
  have hname : fileNameFor pattern env role = withEnding (bareName pattern env role) := rfl
  by_cases hpattern : Text.endsWith pattern ending = true
  · obtain ⟨x, hx⟩ := Text.exists_of_endsWith hpattern
    obtain rfl : pattern = String.ofList x ++ ending := by
      apply String.toList_inj.mp
      rw [hx, String.toList_append, String.toList_ofList]
    have hbare : bareName (String.ofList x ++ ending) env role =
        filled (String.ofList x) (env.getD defaultEnv) role ++ ending :=
      honce.trans (filled_append_ending _ _ _)
    rw [hname, hbare, withEnding, if_pos (Text.endsWith_append _ _), withEnding, if_pos hpattern, filled_append_ending]
  · have hbare := hending.resolve_left hpattern
    rw [hname, withEnding, if_neg (Bool.eq_false_iff.mp hbare), withEnding, if_neg hpattern, filled_append_ending,
      honce]

/-! ### Roles and their own file names -/

/-- The name of a role can be read off its file name: filling the pattern makes no new places, the ending is not
shared, role and environment are texts that a place can stand for, and they are set apart. -/
structure Legible (pattern : String) (env : Option String) (role : String) : Prop where
  once : FillsAtOnce pattern env role
  ending : Text.endsWith pattern ending = true ∨ Text.endsWith (bareName pattern env role) ending = false
  roleFills : Fills role
  envFills : .env ∈ pieces (withEnding pattern) → Fills (env.getD defaultEnv)
  apart : tellsRole (env.getD defaultEnv) role (pieces (withEnding pattern)) = true

/-- The default pattern makes every role legible that a place can stand for and that has no brace. -/
theorem legible_default (env : Option String) {role : String} (hrole : Fills role) (hbrace : '\x7b' ∉ role.toList) :
    Legible ({} : StoreSettings).filePattern env role := by
  have hpieces : pieces (withEnding ({} : StoreSettings).filePattern) = .role :: ending.toList.map .char := by decide
  constructor
  · exact fillsAtOnce_of_not_mem env (by decide) hbrace
  · exact .inl (by decide)
  · exact hrole
  · intro henv
    rw [hpieces] at henv
    exact absurd henv (by decide)
  · rw [hpieces, tellsRole]
    exact setsApart_of_chars (by decide)

/-- A role that is legible is read off its own file name. -/
theorem roleOf?_of_legible {pattern role path : String} {env : Option String} (h : Legible pattern env role)
    (hpath : Path.fileName? path = some (fileNameFor pattern env role)) : roleOf? path pattern = some role := by
  obtain ⟨texts, hread, hfound⟩ := roleAmong_fillings h.roleFills h.envFills h.apart
  have hname : (fileNameFor pattern env role).toList =
      (pieces (withEnding pattern)).flatMap (Piece.text (env.getD defaultEnv) role) := by
    rw [fileNameFor_eq_filled h.once h.ending, filled, String.toList_ofList]
  simp only [roleOf?, hpath, Option.bind_eq_bind, Option.bind_some, hname, hread, hfound]

end SignOn.Store
