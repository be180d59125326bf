import SignOn.Proofs.NameReading

/-! # Readings of a file name

* `Store.Spells` says what a pattern stands for: its characters stand for themselves, and each place for a text that
  is not empty and has no line end, one place independently of the others.  The texts are a `Store.Reading`.
* Of the readings of a name the one with the shortest texts counts, from left to right.  Filling a place takes the
  shortest text that leaves something to read (`of_fill_eq_some`), so that this reading is found if there is any
  (`found_fillings`).
* `Store.roleOf?_spec` says which role is read off a name. -/

namespace SignOn.Store

/-! ### What a pattern stands for -/

/-- How a place is written. -/
inductive PlaceOf : Piece → String → Prop
  | role : PlaceOf .role rolePlace
  | env : PlaceOf .env envPlace

/-- The texts that the places of a pattern stand for, from left to right. -/
abbrev Reading := List (Piece × String)

def Reading.lengths (r : Reading) : List Nat :=
  r.map fun x => x.2.length

/-- A pattern stands for a name, with a text for each of its places. -/
inductive Spells : List Char → Reading → List Char → Prop
  | nil : Spells [] [] []
  | char {c : Char} {pattern name : List Char} {r : Reading} (hplace : ¬ StartsPlace (c :: pattern))
      (h : Spells pattern r name) : Spells (c :: pattern) r (c :: name)
  | place {p : Piece} {place text : String} {pattern name : List Char} {r : Reading} (hp : PlaceOf p place)
      (htext : Fills text) (h : Spells pattern r name) :
      Spells (place.toList ++ pattern) ((p, text) :: r) (text.toList ++ name)

/-- From left to right, the first length that differs is shorter. -/
def Reading.Undercuts (r other : Reading) : Prop :=
  List.Lex (· < ·) r.lengths other.lengths

/-- A reading of a name that no other one undercuts. -/
structure Least (pattern : List Char) (r : Reading) (name : List Char) : Prop where
  spells : Spells pattern r name
  not_undercuts : ∀ other : Reading, Spells pattern other name → ¬ other.Undercuts r

section

variable {p q : Piece} {place other : String} {pattern rest name : List Char} {r r' : Reading} {c : Char}

theorem PlaceOf.startsPlace (h : PlaceOf p place) (rest : List Char) : StartsPlace (place.toList ++ rest) := by
  cases h with
  | role => exact .inl ⟨rest, rfl⟩
  | env => exact .inr ⟨rest, rfl⟩

theorem PlaceOf.ne_nil (h : PlaceOf p place) (rest : List Char) : place.toList ++ rest ≠ [] := by
  cases h <;> exact List.cons_ne_nil _ _

theorem PlaceOf.append_inj (h : PlaceOf p place) (h' : PlaceOf q other)
    (heq : place.toList ++ pattern = other.toList ++ rest) : p = q ∧ pattern = rest := by
  cases h <;> cases h'
  · exact ⟨rfl, List.append_cancel_left heq⟩
  · cases heq
  · cases heq
  · exact ⟨rfl, List.append_cancel_left heq⟩

theorem PlaceOf.piecesFrom_append (h : PlaceOf p place) (rest : List Char) :
    piecesFrom 0 (place.toList ++ rest) = p :: piecesFrom 0 rest := by
  cases h with
  | role => exact piecesFrom_rolePlace rest
  | env => exact piecesFrom_envPlace rest

theorem PlaceOf.fillings_cons (h : PlaceOf p place) (ps : List Piece) (cs : List Char) :
    fillings (p :: ps) cs = fill (fillings ps) [] cs := by
  cases h <;> rfl

/-! ### What stands in front of a name -/

theorem spells_nil_iff : Spells [] r name ↔ r = [] ∧ name = [] := by
  constructor
  · intro h
    generalize hpattern : ([] : List Char) = pattern at h
    cases h with
    | nil => exact ⟨rfl, rfl⟩
    | char => cases hpattern
    | place hp => exact absurd hpattern.symm (hp.ne_nil _)
  · rintro ⟨rfl, rfl⟩
    exact .nil

theorem spells_char_iff (hplace : ¬ StartsPlace (c :: pattern)) :
    Spells (c :: pattern) r name ↔ ∃ rest, name = c :: rest ∧ Spells pattern r rest := by
  constructor
  · intro h
    generalize hpattern : c :: pattern = whole at h
    cases h with
    | nil => cases hpattern
    | char _ h =>
        obtain ⟨rfl, rfl⟩ := List.cons.inj hpattern
        exact ⟨_, rfl, h⟩
    | place hp => exact absurd (hpattern ▸ hp.startsPlace _) hplace
  · rintro ⟨rest, rfl, h⟩
    exact .char hplace h

theorem spells_place_iff (hp : PlaceOf p place) : Spells (place.toList ++ pattern) r name ↔
    ∃ text rest r', Fills text ∧ name = text.toList ++ rest ∧ r = (p, text) :: r' ∧ Spells pattern r' rest := by
  constructor
  · intro h
    generalize hpattern : place.toList ++ pattern = whole at h
    cases h with
    | nil => exact absurd hpattern (hp.ne_nil _)
    | char hplace _ => exact absurd (hpattern ▸ hp.startsPlace _) hplace
    | place hq htext h =>
        obtain ⟨rfl, rfl⟩ := hp.append_inj hq hpattern
        exact ⟨_, _, _, htext, rfl, rfl, h⟩
  · rintro ⟨text, rest, r', htext, rfl, rfl, h⟩
    exact .place hp htext h

theorem Spells.eq_of_lengths (h : Spells pattern r name) (h' : Spells pattern r' name)
    (hlengths : r.lengths = r'.lengths) : r = r' := by
  induction h generalizing r' with
  | nil => exact (spells_nil_iff.mp h').1.symm
  | char hplace _ ih =>
      obtain ⟨rest, hname, hrest⟩ := (spells_char_iff hplace).mp h'
      obtain ⟨-, rfl⟩ := List.cons.inj hname
      exact ih hrest hlengths
  | @place _ _ text' _ _ _ hp htext _ ih =>
      obtain ⟨text, rest, r₁, -, hname, rfl, hrest⟩ := (spells_place_iff hp).mp h'
      obtain ⟨hlength, hlengths⟩ := List.cons.inj hlengths
      have hlength : text'.length = text.length := hlength
      rw [← String.length_toList, ← String.length_toList] at hlength
      obtain ⟨htexts, rfl⟩ := List.append_inj hname hlength
      rw [String.toList_inj.mp htexts, ih hrest hlengths]

theorem undercuts_cons_iff {text text' : String} : Reading.Undercuts ((p, text) :: r) ((q, text') :: r') ↔
    text.length < text'.length ∨ text.length = text'.length ∧ r.Undercuts r' :=
  List.cons_lex_cons_iff

theorem not_undercuts_nil : ¬ r.Undercuts [] :=
  List.not_lex_nil

theorem lengths_eq_of_not_undercuts (h : ¬ r.Undercuts r') (h' : ¬ Reading.Undercuts r' r) : r.lengths = r'.lengths :=
  @List.le_antisymm Nat _ _ r.lengths r'.lengths h' h

theorem Least.unique (h : Least pattern r name) (h' : Least pattern r' name) : r = r' :=
  h.spells.eq_of_lengths h'.spells
    (lengths_eq_of_not_undercuts (h'.not_undercuts r h.spells) (h.not_undercuts r' h'.spells))

/-- The shortest text that leaves something to read, and the least reading of what it leaves. -/
theorem Least.fill {text : String} (hp : PlaceOf p place) (htext : Fills text) (h : Least pattern r rest)
    (hshort : ∀ u₁ u₂, text.toList = u₁ ++ u₂ → u₁ ≠ [] → u₂ ≠ [] → ∀ r, ¬ Spells pattern r (u₂ ++ rest)) :
    Least (place.toList ++ pattern) ((p, text) :: r) (text.toList ++ rest) := by
  refine ⟨.place hp htext h.spells, fun other hother => ?_⟩
  obtain ⟨text', rest', r', htext', hname, rfl, hrest⟩ := (spells_place_iff hp).mp hother
  rw [undercuts_cons_iff, ← String.length_toList, ← String.length_toList]
  rcases List.append_eq_append_iff.mp hname with ⟨more, hmore, rfl⟩ | ⟨less, hless, rfl⟩
  · rw [hmore, List.length_append]
    rintro (hlt | ⟨heq, hundercuts⟩)
    · omega
    · obtain rfl := List.length_eq_zero_iff.mp (Nat.add_eq_left.mp heq)
      exact h.not_undercuts r' hrest hundercuts
  · by_cases hnil : less = []
    · subst hnil
      rw [hless, List.append_nil]
      rintro (hlt | ⟨-, hundercuts⟩)
      · exact absurd hlt (Nat.lt_irrefl _)
      · exact h.not_undercuts r' hrest hundercuts
    · exact absurd hrest (hshort _ _ hless htext'.ne_nil hnil r')

end

/-! ### The shortest texts -/

section

variable {rest : List Char → Option (List (List Char))} {text cs : List Char} {found : List (List Char)}

/-- What a place is filled with is the shortest text that leaves something to read. -/
theorem of_fill_eq_some (h : fill rest text cs = some found) :
    ∃ u v texts, cs = u ++ v ∧ u ≠ [] ∧ '\n' ∉ u ∧ rest v = some texts ∧ found = (text ++ u) :: texts ∧
      ∀ u₁ u₂, u = u₁ ++ u₂ → u₁ ≠ [] → u₂ ≠ [] → rest (u₂ ++ v) = none := by
  induction cs generalizing text with
  | nil => cases h
  | cons c cs ih =>
      rw [fill] at h
      by_cases hline : c = '\n'
      · rw [if_pos hline] at h
        cases h
      rw [if_neg hline] at h
      -- One character will do if the rest can be read behind it; if not, the text goes on as far as the induction says.
      cases hrest : rest cs with
      | some texts =>
          rw [hrest] at h
          have hone : '\n' ∉ [c] := fun hmem => hline (List.mem_singleton.mp hmem).symm
          refine ⟨[c], cs, texts, rfl, List.cons_ne_nil c [], hone, hrest, (Option.some.inj h).symm, ?_⟩
          intro u₁ u₂ hsplit hu₁ hu₂
          have hlength := congrArg List.length hsplit
          rw [List.length_singleton, List.length_append] at hlength
          have hpos₁ := List.length_pos_iff.mpr hu₁
          have hpos₂ := List.length_pos_iff.mpr hu₂
          omega
      | none =>
          rw [hrest] at h
          obtain ⟨u, v, texts, rfl, -, hu, hv, hfound, hshort⟩ := ih h
          have hmem : '\n' ∉ c :: u := fun hmem => (List.mem_cons.mp hmem).elim (Ne.symm hline) hu
          refine ⟨c :: u, v, texts, rfl, List.cons_ne_nil c u, hmem, hv, ?_, ?_⟩
          · rw [hfound, List.append_assoc, List.singleton_append]
          · intro u₁ u₂ hsplit hu₁ hu₂
            obtain ⟨d, u₁, rfl⟩ := List.exists_cons_of_ne_nil hu₁
            obtain ⟨rfl, rfl⟩ := List.cons.inj hsplit
            by_cases hnil : u₁ = []
            · subst hnil
              exact hrest
            · exact hshort u₁ u₂ rfl hnil hu₂

theorem rest_eq_none_of_fill (h : fill rest text cs = none) {u v : List Char} (hcs : cs = u ++ v) (hu : u ≠ [])
    (hline : '\n' ∉ u) : rest v = none := by
  cases hrest : rest v with
  | none => rfl
  | some texts =>
      obtain ⟨found, hfound⟩ : ∃ found, fill rest text (u ++ v) = some found :=
        exists_fill hu hline ⟨texts, hrest⟩
      rw [← hcs, h] at hfound
      cases hfound

end

/-! ### The reading that is found -/

/-- What is found is the least reading of a name, and if nothing is found, there is none. -/
def Found (pattern name : List Char) : Option (List (List Char)) → Prop
  | none => ∀ r, ¬ Spells pattern r name
  | some texts => ∃ r, Least pattern r name ∧ texts = r.map fun x => x.2.toList

section

variable {p : Piece} {place : String} {pattern rest name : List Char} {r : Reading}

theorem found_nil (name : List Char) : Found [] name (fillings [] name) := by
  cases name with
  | nil =>
      exact ⟨[], ⟨.nil, fun other _ => not_undercuts_nil⟩, rfl⟩
  | cons c name =>
      intro r hr
      cases (spells_nil_iff.mp hr).2

theorem Found.of_spells_iff {pattern' name' : List Char} {found : Option (List (List Char))}
    (h : Found pattern name found) (hiff : ∀ r, Spells pattern' r name' ↔ Spells pattern r name) :
    Found pattern' name' found := by
  cases found with
  | none => exact fun r hr => h r ((hiff r).mp hr)
  | some texts =>
      obtain ⟨r, hleast, htexts⟩ := h
      exact ⟨r, ⟨(hiff r).mpr hleast.spells, fun other hother =>
        hleast.not_undercuts other ((hiff other).mp hother)⟩, htexts⟩

theorem found_char {c : Char} (hplace : ¬ StartsPlace (c :: pattern))
    (ih : ∀ name, Found pattern name (fillings (piecesFrom 0 pattern) name)) (name : List Char) :
    Found (c :: pattern) name (fillings (piecesFrom 0 (c :: pattern)) name) := by
  rw [piecesFrom_char hplace]
  cases name with
  | nil =>
      intro r hr
      obtain ⟨_, hname, -⟩ := (spells_char_iff hplace).mp hr
      cases hname
  | cons d name =>
      rw [fillings]
      by_cases hcd : c = d
      · subst hcd
        rw [if_pos rfl]
        refine (ih name).of_spells_iff fun r => (spells_char_iff hplace).trans ⟨?_, fun h => ⟨name, rfl, h⟩⟩
        rintro ⟨rest, hname, h⟩
        obtain ⟨-, rfl⟩ := List.cons.inj hname
        exact h
      · rw [if_neg hcd]
        intro r hr
        obtain ⟨_, hname, -⟩ := (spells_char_iff hplace).mp hr
        exact hcd (List.cons.inj hname).1.symm

theorem found_place (hp : PlaceOf p place)
    (ih : ∀ name, Found pattern name (fillings (piecesFrom 0 pattern) name)) (name : List Char) :
    Found (place.toList ++ pattern) name (fillings (piecesFrom 0 (place.toList ++ pattern)) name) := by
  rw [hp.piecesFrom_append, hp.fillings_cons]
  have hnone : ∀ {v}, fillings (piecesFrom 0 pattern) v = none → ∀ r, ¬ Spells pattern r v := by
    intro v hv
    have hfound := ih v
    rwa [hv] at hfound
  cases hfill : fill (fillings (piecesFrom 0 pattern)) [] name with
  | none =>
      intro r hr
      obtain ⟨text, v, r', htext, hname, rfl, h⟩ := (spells_place_iff hp).mp hr
      exact hnone (rest_eq_none_of_fill hfill hname htext.ne_nil htext.line) r' h
  | some found =>
      obtain ⟨u, v, texts, rfl, hu, hline, hrest, rfl, hshort⟩ := of_fill_eq_some hfill
      have hv := ih v
      rw [hrest] at hv
      obtain ⟨r, hleast, rfl⟩ := hv
      have hchars : (String.ofList u).toList = u := String.toList_ofList
      have hfills : Fills (String.ofList u) := ⟨hchars.symm ▸ hu, hchars.symm ▸ hline⟩
      have hplace := hleast.fill hp hfills fun u₁ u₂ hsplit hu₁ hu₂ =>
        hnone (hshort u₁ u₂ (hchars.symm.trans hsplit) hu₁ hu₂)
      rw [hchars] at hplace
      exact ⟨_, hplace, by rw [List.map_cons, hchars, List.nil_append]⟩

theorem found_fillings (pattern name : List Char) : Found pattern name (fillings (piecesFrom 0 pattern) name) := by
  induction pattern using pattern_induction generalizing name with
  | nil => exact found_nil name
  | role rest ih => exact found_place .role ih name
  | env rest ih => exact found_place .env ih name
  | char c rest hplace ih => exact found_char hplace ih name

theorem Spells.exists_least (h : Spells pattern r name) : ∃ least, Least pattern least name := by
  have hfound := found_fillings pattern name
  cases hfill : fillings (piecesFrom 0 pattern) name with
  | none =>
      rw [hfill] at hfound
      exact absurd h (hfound r)
  | some texts =>
      rw [hfill] at hfound
      obtain ⟨least, hleast, -⟩ := hfound
      exact ⟨least, hleast⟩

theorem Spells.roleAmong_eq (h : Spells pattern r name) :
    roleAmong (piecesFrom 0 pattern) (r.map fun x => x.2.toList) = r.lookup .role := by
  induction h with
  | nil => rfl
  | char hplace _ ih => rw [piecesFrom_char hplace, roleAmong, ih]
  | place hp _ _ ih =>
      rw [hp.piecesFrom_append, List.map_cons]
      cases hp with
      | role =>
          rw [roleAmong, String.ofList_toList]
          rfl
      | env =>
          rw [roleAmong, ih]
          rfl

theorem Spells.lookup_isSome (h : Spells pattern r name) :
    (r.lookup .role).isSome = Text.occursIn rolePlace.toList pattern := by
  induction h with
  | nil => rfl
  | char hplace _ ih => rw [occursIn_char hplace, ih]
  | place hp _ _ ih =>
      cases hp with
      | role => rfl
      | env => exact ih

end

theorem roleOf?_eq_some_iff {path pattern role : String} : roleOf? path pattern = some role ↔
    ∃ name, Path.fileName? path = some name ∧
      ∃ r, Least (withEnding pattern).toList r name.toList ∧ r.lookup .role = some role := by
  rw [roleOf?]
  cases Path.fileName? path with
  | none => simp
  | some name =>
      have hfound := found_fillings (withEnding pattern).toList name.toList
      simp only [Option.bind_eq_bind, Option.bind_some, pieces, Option.some.injEq, exists_eq_left']
      cases hfill : fillings (piecesFrom 0 (withEnding pattern).toList) name.toList with
      | none =>
          rw [hfill] at hfound
          constructor
          · rintro ⟨⟩
          · rintro ⟨r, hleast, -⟩
            exact absurd hleast.spells (hfound r)
      | some texts =>
          rw [hfill] at hfound
          obtain ⟨r, hleast, rfl⟩ := hfound
          rw [Option.bind_some, hleast.spells.roleAmong_eq]
          constructor
          · exact fun hrole => ⟨r, hleast, hrole⟩
          · rintro ⟨other, hother, hrole⟩
            rwa [hleast.unique hother]

/-- **Which role is read off a name.**  Of a path the last part counts; without one there is no role.  A role is read
off it if the pattern, with the ending, has the place of the role, and stands for this name: each character for itself,
and each place for a text of its own that is not empty and has no line end.  Of all such readings there is one with the
shortest texts, from left to right, and the role is the text of the first place of the role there. -/
theorem roleOf?_spec (path pattern : String) :
    ((∃ role, roleOf? path pattern = some role) ↔ ∃ name, Path.fileName? path = some name ∧
        Text.contains (withEnding pattern) rolePlace = true ∧
        ∃ r, Spells (withEnding pattern).toList r name.toList) ∧
      ∀ role, roleOf? path pattern = some role ↔ ∃ name, Path.fileName? path = some name ∧
        ∃ r, Least (withEnding pattern).toList r name.toList ∧
          (∀ other, Least (withEnding pattern).toList other name.toList → other = r) ∧ r.lookup .role = some role := by
  constructor
  · constructor
    · rintro ⟨role, hrole⟩
      obtain ⟨name, hname, r, hleast, hlookup⟩ := roleOf?_eq_some_iff.mp hrole
      refine ⟨name, hname, ?_, r, hleast.spells⟩
      rw [Text.contains, ← hleast.spells.lookup_isSome, hlookup]
      rfl
    · rintro ⟨name, hname, hcontains, r, hr⟩
      obtain ⟨least, hleast⟩ := hr.exists_least
      rw [Text.contains, ← hleast.spells.lookup_isSome] at hcontains
      obtain ⟨role, hrole⟩ := Option.isSome_iff_exists.mp hcontains
      exact ⟨role, roleOf?_eq_some_iff.mpr ⟨name, hname, least, hleast, hrole⟩⟩
  · intro role
    rw [roleOf?_eq_some_iff]
    refine exists_congr fun name => and_congr_right fun _ => exists_congr fun r => and_congr_right fun hleast => ?_
    exact (and_iff_right fun other hother => hother.unique hleast).symm

/-- Of the ways to read this name the one with the shorter role counts, and a point stands for nothing but a point. -/
theorem roleOf?_spec_dashes :
    (∃ r, Least "\x7brole\x7d-\x7benv\x7d.json".toList r "qa-b-c.json".toList ∧ r.lookup .role = some "qa") ∧
      ∀ r, ¬ Spells "\x7brole\x7d.\x7benv\x7d.json".toList r "qa-b-c.json".toList := by
  have hname : Path.fileName? "states/qa-b-c.json" = some "qa-b-c.json" := by decide +kernel
  constructor
  · have hrole : roleOf? "states/qa-b-c.json" "\x7brole\x7d-\x7benv\x7d" = some "qa" := by decide +kernel
    obtain ⟨name, hname', r, hleast, -, hlookup⟩ := ((roleOf?_spec _ _).2 "qa").mp hrole
    obtain rfl := Option.some.inj (hname.symm.trans hname')
    exact ⟨r, hleast, hlookup⟩
  · intro r hr
    have hcontains : Text.contains (withEnding "\x7brole\x7d.\x7benv\x7d") rolePlace = true := by decide +kernel
    obtain ⟨role, hrole⟩ := (roleOf?_spec "states/qa-b-c.json" "\x7brole\x7d.\x7benv\x7d").1.mpr
      ⟨"qa-b-c.json", hname, hcontains, r, hr⟩
    have hnone : roleOf? "states/qa-b-c.json" "\x7brole\x7d.\x7benv\x7d" = none := by decide +kernel
    cases hnone.symm.trans hrole

end SignOn.Store
