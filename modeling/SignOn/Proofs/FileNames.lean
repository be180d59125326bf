import SignOn.Proofs.Files
import SignOn.Proofs.Paths
import SignOn.Settings.Format

/-! # File names of different roles

* `Store.filled` is a pattern with both of its places filled at once.  A pattern with a place for the role
  gives different roles different names then (`filled_injective`).
* The store fills one place after the other.  `Store.FillsAtOnce` says that it comes to the same: the name of
  the role has made no new place of the environment.  Without further braces it never does
  (`fillsAtOnce_of_not_mem`).
* The ending is only put behind names without it (`withEnding_eq_iff`), and a path is only put below the directory
  if it is relative (`join_eq_join_iff`).
* `pathFor_eq_iff` puts these together, for the texts of paths, and `goal_pathFor_eq_iff` for the places that paths of
  plain names lead to. -/

namespace SignOn

namespace Text

theorem isSome_dropPrefix?_iff {p t : List Char} : (dropPrefix? p t).isSome = true ↔ p <+: t := by
  rw [Option.isSome_iff_exists]
  exact exists_congr fun rest => dropPrefix?_eq_some_iff.trans eq_comm

theorem replaceFrom_length (p r xs rest : List Char) :
    replaceFrom p r xs.length (xs ++ rest) = replaceFrom p r 0 rest := by
  induction xs with
  | nil => rfl
  | cons x xs ih => exact ih

theorem replaceFrom_append_self {p : List Char} (hp : p ≠ []) (r rest : List Char) :
    replaceFrom p r 0 (p ++ rest) = r ++ replaceFrom p r 0 rest := by
  cases p with
  | nil => exact absurd rfl hp
  | cons c p =>
      have hfound : (dropPrefix? (c :: p) (c :: (p ++ rest))).isSome = true :=
        Option.isSome_iff_exists.mpr ⟨rest, dropPrefix?_eq_some_iff.mpr rfl⟩
      rw [List.cons_append, replaceFrom, if_pos hfound]
      exact congrArg (r ++ ·) (replaceFrom_length (c :: p) r p rest)

theorem replaceFrom_append_of_not_mem {c : Char} {p r xs : List Char} (h : c ∉ xs) (rest : List Char) :
    replaceFrom (c :: p) r 0 (xs ++ rest) = xs ++ replaceFrom (c :: p) r 0 rest := by
  induction xs with
  | nil => rfl
  | cons x xs ih =>
      rw [List.mem_cons, not_or] at h
      have hmissed : ¬ (dropPrefix? (c :: p) (x :: (xs ++ rest))).isSome = true := by
        rw [dropPrefix?, if_neg h.1]
        exact Bool.false_ne_true
      rw [List.cons_append, replaceFrom, if_neg hmissed, ih h.2, List.cons_append]

end Text

namespace Path

/-- One path is absolute, and is what the other one comes to below a directory. -/
def Replaces (directory p q : String) : Prop :=
  isAbsolute p = true ∧ isAbsolute q = false ∧ p = join directory q

instance (directory p q : String) : Decidable (Replaces directory p q) :=
  inferInstanceAs (Decidable (_ ∧ _))

theorem join_injective {directory p q : String} (habsolute : isAbsolute p = isAbsolute q)
    (h : join directory p = join directory q) : p = q := by
  have hcancel : ∀ {front : String}, front ++ p = front ++ q → p = q := by
    intro front hfront
    have hchars := congrArg String.toList hfront
    rw [String.toList_append, String.toList_append] at hchars
    exact String.toList_inj.mp (List.append_cancel_left hchars)
  unfold join at h
  rw [habsolute] at h
  split at h
  · exact h
  · split at h
    · exact hcancel h
    · exact hcancel h

theorem foldl_enter {ps : List String} (h : ∀ part ∈ ps, part ≠ "..") (place : Files.Place) :
    ps.foldl Files.enter place = place ++ ps := by
  induction ps generalizing place with
  | nil => rw [List.foldl_nil, List.append_nil]
  | cons part ps ih =>
      rw [List.forall_mem_cons] at h
      rw [List.foldl_cons, ih h.2, Files.enter, if_neg h.1, List.append_assoc, List.singleton_append]

/-- Two paths are the same below a directory if they are the same, or if one of them is absolute and is what the other
one comes to there. -/
theorem join_eq_join_iff {directory p q : String} : join directory p = join directory q ↔
    p = q ∨ Replaces directory p q ∨ Replaces directory q p := by
  have hsame : isAbsolute p = isAbsolute q → (join directory p = join directory q ↔ p = q) :=
    fun h => ⟨join_injective h, congrArg (join directory)⟩
  have habsolute : ∀ {r : String}, isAbsolute r = true → join directory r = r := fun hr => if_pos (.inl hr)
  cases hp : isAbsolute p <;> cases hq : isAbsolute q
  · rw [hsame (hp.trans hq.symm)]
    simp [Replaces, hp, hq]
  · have hne : p ≠ q := fun h => by rw [h, hq] at hp; cases hp
    rw [habsolute hq]
    simp [Replaces, hp, hq, hne, eq_comm]
  · have hne : p ≠ q := fun h => by rw [h, hq] at hp; cases hp
    rw [habsolute hp]
    simp [Replaces, hp, hq, hne]
  · rw [hsame (hp.trans hq.symm)]
    simp [Replaces, hp, hq]

/-- A name that is relative and does not lead upwards leads to a place below the one of the directory. -/
theorem goal_join {p : String} (hp : isAbsolute p = false) (hdown : ".." ∉ parts p) (working : Files.Place)
    (directory : String) :
    Files.goal working (join directory p) = Files.goal working directory ++ parts p := by
  rw [Files.goal, parts_join directory hp, isAbsolute_join directory hp, List.foldl_append,
    foldl_enter fun part hpart hup => hdown (hup ▸ hpart)]
  rfl

theorem Plain.goal_join {p : String} (h : Plain p) (working : Files.Place) (directory : String) :
    Files.goal working (join directory p) = Files.goal working directory ++ rawParts p := by
  have hdown : ".." ∉ parts p := fun hup => (h ".." (h.parts_eq ▸ hup)).2.2 rfl
  rw [Path.goal_join h.not_isAbsolute hdown, h.parts_eq]

end Path

namespace Store

/-! ### Filling -/

/-- A part of a pattern with its place filled. -/
def Piece.text (env role : String) : Piece → List Char
  | .char c => [c]
  | .role => role.toList
  | .env => env.toList

/-- A pattern with both of its places filled at once. -/
def filled (pattern env role : String) : String :=
  String.ofList ((pieces pattern).flatMap (Piece.text env role))

/-- A pattern with its places filled one after the other. -/
def bareName (pattern : String) (env : Option String) (role : String) : String :=
  Text.replaceAll (Text.replaceAll pattern rolePlace role) envPlace (env.getD defaultEnv)

/-- It makes no difference whether the places are filled at once or one after the other. -/
def FillsAtOnce (pattern : String) (env : Option String) (role : String) : Prop :=
  bareName pattern env role = filled pattern (env.getD defaultEnv) role

instance (pattern : String) (env : Option String) (role : String) : Decidable (FillsAtOnce pattern env role) :=
  inferInstanceAs (Decidable (_ = _))

/-! ### Parts of a pattern -/

def StartsPlace (cs : List Char) : Prop :=
  rolePlace.toList <+: cs ∨ envPlace.toList <+: cs

theorem pattern_induction {P : List Char → Prop} (nil : P []) (role : ∀ rest, P rest → P (rolePlace.toList ++ rest))
    (env : ∀ rest, P rest → P (envPlace.toList ++ rest))
    (char : ∀ c rest, ¬ StartsPlace (c :: rest) → P rest → P (c :: rest)) (cs : List Char) : P cs := by
  induction h : cs.length using Nat.strongRecOn generalizing cs with
  | ind n ih =>
      subst h
      have hshorter : ∀ {place rest : List Char}, place ++ rest = cs → 0 < place.length → P rest := by
        rintro place rest rfl hplace
        exact ih _ (by rw [List.length_append]; omega) rest rfl
      cases cs with
      | nil => exact nil
      | cons c cs =>
          by_cases hplace : StartsPlace (c :: cs)
          · obtain ⟨rest, hrest⟩ | ⟨rest, hrest⟩ := hplace
            · rw [← hrest]
              exact role rest (hshorter hrest (by decide))
            · rw [← hrest]
              exact env rest (hshorter hrest (by decide))
          · exact char c cs hplace (ih _ (Nat.lt_succ_self _) cs rfl)

theorem piecesFrom_length (xs rest : List Char) : piecesFrom xs.length (xs ++ rest) = piecesFrom 0 rest := by
  induction xs with
  | nil => rfl
  | cons x xs ih => exact ih

theorem piecesFrom_rolePlace (rest : List Char) :
    piecesFrom 0 (rolePlace.toList ++ rest) = .role :: piecesFrom 0 rest :=
  congrArg (Piece.role :: ·) (piecesFrom_length rolePlace.toList.tail rest)

theorem piecesFrom_envPlace (rest : List Char) :
    piecesFrom 0 (envPlace.toList ++ rest) = .env :: piecesFrom 0 rest :=
  congrArg (Piece.env :: ·) (piecesFrom_length envPlace.toList.tail rest)

theorem piecesFrom_char {c : Char} {rest : List Char} (h : ¬ StartsPlace (c :: rest)) :
    piecesFrom 0 (c :: rest) = .char c :: piecesFrom 0 rest := by
  rw [StartsPlace, ← Text.isSome_dropPrefix?_iff, ← Text.isSome_dropPrefix?_iff, not_or] at h
  rw [piecesFrom, if_neg h.1, if_neg h.2]

/-! ### Filling one place after the other -/

theorem replaceFrom_rolePlace (role : String) (cs : List Char) :
    Text.replaceFrom rolePlace.toList role.toList 0 cs =
      (piecesFrom 0 cs).flatMap (Piece.text envPlace role) := by
  induction cs using pattern_induction with
  | nil => rfl
  | role rest ih =>
      rw [piecesFrom_rolePlace, Text.replaceFrom_append_self (by decide), ih, List.flatMap_cons]
      rfl
  | env rest ih =>
      have hbrace : '\x7b' ∉ envPlace.toList.tail := by decide
      have hkeep : Text.replaceFrom rolePlace.toList role.toList 0 (envPlace.toList ++ rest) =
          envPlace.toList ++ Text.replaceFrom rolePlace.toList role.toList 0 rest :=
        congrArg ('\x7b' :: ·) (Text.replaceFrom_append_of_not_mem hbrace rest)
      rw [piecesFrom_envPlace, hkeep, ih, List.flatMap_cons]
      rfl
  | char c rest hplace ih =>
      have hrole : ¬ (Text.dropPrefix? rolePlace.toList (c :: rest)).isSome = true :=
        fun h => hplace (.inl (Text.isSome_dropPrefix?_iff.mp h))
      rw [piecesFrom_char hplace, Text.replaceFrom, if_neg hrole, ih, List.flatMap_cons]
      rfl

theorem replaceFrom_envPlace {env role : String} (hrole : '\x7b' ∉ role.toList) {ps : List Piece}
    (hps : .char '\x7b' ∉ ps) :
    Text.replaceFrom envPlace.toList env.toList 0 (ps.flatMap (Piece.text envPlace role)) =
      ps.flatMap (Piece.text env role) := by
  induction ps with
  | nil => rfl
  | cons p ps ih =>
      rw [List.mem_cons, not_or] at hps
      rw [List.flatMap_cons, List.flatMap_cons, ← ih hps.2]
      cases p with
      | env => exact Text.replaceFrom_append_self (by decide) _ _
      | role => exact Text.replaceFrom_append_of_not_mem hrole _
      | char c =>
          have hc : '\x7b' ∉ [c] := fun h => hps.1 (congrArg Piece.char (List.mem_singleton.mp h))
          exact Text.replaceFrom_append_of_not_mem hc _

/-- A role without an opening brace, in a pattern without one outside its places, makes no new place. -/
theorem fillsAtOnce_of_not_mem {pattern role : String} (env : Option String)
    (hpattern : .char '\x7b' ∉ pieces pattern) (hrole : '\x7b' ∉ role.toList) :
    FillsAtOnce pattern env role := by
  rw [FillsAtOnce, bareName, filled, Text.replaceAll, Text.replaceAll, String.toList_ofList,
    replaceFrom_rolePlace]
  exact congrArg String.ofList (replaceFrom_envPlace hrole hpattern)

/-! ### Names of different roles -/

theorem occursIn_char {c : Char} {rest : List Char} (h : ¬ StartsPlace (c :: rest)) :
    Text.occursIn rolePlace.toList (c :: rest) = Text.occursIn rolePlace.toList rest := by
  have hrole : (Text.dropPrefix? rolePlace.toList (c :: rest)).isSome = false :=
    Bool.eq_false_iff.mpr fun hsome => h (.inl (Text.isSome_dropPrefix?_iff.mp hsome))
  rw [Text.occursIn, hrole, Bool.false_or]

theorem role_mem_piecesFrom {cs : List Char} (h : Text.occursIn rolePlace.toList cs = true) :
    .role ∈ piecesFrom 0 cs := by
  induction cs using pattern_induction with
  | nil => cases h
  | role rest ih =>
      rw [piecesFrom_rolePlace]
      exact List.mem_cons_self
  | env rest ih =>
      rw [piecesFrom_envPlace]
      exact List.mem_cons_of_mem _ (ih h)
  | char c rest hplace ih =>
      rw [piecesFrom_char hplace]
      rw [occursIn_char hplace] at h
      exact List.mem_cons_of_mem _ (ih h)

theorem role_mem_pieces {pattern : String} (h : Text.contains pattern rolePlace = true) :
    .role ∈ pieces pattern :=
  role_mem_piecesFrom h

/-- The role's name stands in a filled text as often as the pattern has a place for it. -/
theorem length_flatMap_text (env role : String) (ps : List Piece) :
    (ps.flatMap (Piece.text env role)).length =
      (ps.flatMap (Piece.text env "")).length + ps.count .role * role.toList.length := by
  induction ps with
  | nil => simp
  | cons p ps ih =>
      rw [List.flatMap_cons, List.flatMap_cons, List.length_append, List.length_append, ih]
      cases p with
      | char c =>
          rw [List.count_cons_of_ne (by simp)]
          simp only [Piece.text]
          omega
      | role =>
          have hempty : (Piece.text env "" .role).length = 0 := rfl
          rw [List.count_cons_self, Nat.add_mul, hempty]
          simp only [Piece.text]
          omega
      | env =>
          rw [List.count_cons_of_ne (by simp)]
          simp only [Piece.text]
          omega

theorem eq_of_flatMap_text_eq {env r₁ r₂ : String} (hlen : r₁.toList.length = r₂.toList.length) {ps : List Piece}
    (hps : .role ∈ ps) (h : ps.flatMap (Piece.text env r₁) = ps.flatMap (Piece.text env r₂)) : r₁ = r₂ := by
  induction ps with
  | nil => cases hps
  | cons p ps ih =>
      rw [List.flatMap_cons, List.flatMap_cons] at h
      cases p with
      | role => exact String.toList_inj.mp (List.append_inj h hlen).1
      | char c =>
          have hps : .role ∈ ps := by simpa using hps
          exact ih hps (List.append_cancel_left h)
      | env =>
          have hps : .role ∈ ps := by simpa using hps
          exact ih hps (List.append_cancel_left h)

/-- A pattern with a place for the role gives different roles different names. -/
theorem filled_injective {pattern env r₁ r₂ : String} (hpattern : Text.contains pattern rolePlace = true)
    (h : filled pattern env r₁ = filled pattern env r₂) : r₁ = r₂ := by
  have hmem := role_mem_pieces hpattern
  have htexts := congrArg String.toList h
  rw [filled, filled, String.toList_ofList, String.toList_ofList] at htexts
  have hlength := congrArg List.length htexts
  rw [length_flatMap_text, length_flatMap_text env r₂] at hlength
  have hcount : 0 < (pieces pattern).count .role := List.count_pos_iff.mpr hmem
  have hlen : r₁.toList.length = r₂.toList.length := Nat.eq_of_mul_eq_mul_left hcount (by omega)
  exact eq_of_flatMap_text_eq hlen hmem htexts

/-! ### Endings -/

/-- Two names that come to the same with the ending: they are the same, or the one that lacks the ending is the other
one without it. -/
def Clash (a b : String) : Prop :=
  a = b ∨ (a = b ++ ending ∧ Text.endsWith b ending = false) ∨ (b = a ++ ending ∧ Text.endsWith a ending = false)

instance (a b : String) : Decidable (Clash a b) :=
  inferInstanceAs (Decidable (_ ∨ _))

theorem withEnding_eq_iff {a b : String} : withEnding a = withEnding b ↔ Clash a b := by
  have hlonger : ∀ {x y : String}, Text.endsWith x ending = false → x ≠ y ++ ending := by
    rintro x y hx rfl
    rw [Text.endsWith_append] at hx
    cases hx
  cases ha : Text.endsWith a ending <;> cases hb : Text.endsWith b ending
  · have hcancel : a ++ ending = b ++ ending ↔ a = b := by
      rw [← String.toList_inj, String.toList_append, String.toList_append, List.append_left_inj, String.toList_inj]
    simp [Clash, withEnding, ha, hb, hcancel, hlonger ha, hlonger hb]
  · have hne : a ≠ b := fun h => by rw [h, hb] at ha; cases ha
    simp [Clash, withEnding, ha, hb, hne, eq_comm]
  · have hne : a ≠ b := fun h => by rw [h, hb] at ha; cases ha
    simp [Clash, withEnding, ha, hb, hne]
  · simp [Clash, withEnding, ha, hb]

/-! ### Paths -/

theorem contains_of_checkBy {compile : Compiler} {s : Settings} (h : s.checkBy compile = none) :
    Text.contains s.store.filePattern rolePlace = true := by
  unfold Settings.checkBy at h
  split at h
  · cases h
  · split at h
    · cases h
    · next hpattern => exact Decidable.not_not.mp hpattern

section

variable {env : Option String} {r₁ r₂ : String}

/-- Names of different roles are different as long as neither role makes a new place of the environment. -/
theorem bareName_ne {pattern : String} (hpattern : Text.contains pattern rolePlace = true) (hne : r₁ ≠ r₂)
    (h₁ : FillsAtOnce pattern env r₁) (h₂ : FillsAtOnce pattern env r₂) :
    bareName pattern env r₁ ≠ bareName pattern env r₂ := by
  intro heq
  have hfilled : filled pattern (env.getD defaultEnv) r₁ = filled pattern (env.getD defaultEnv) r₂ :=
    h₁.symm.trans (heq.trans h₂)
  exact hne (filled_injective hpattern hfilled)

theorem fileNameFor_eq_iff {pattern : String} :
    fileNameFor pattern env r₁ = fileNameFor pattern env r₂ ↔
      Clash (bareName pattern env r₁) (bareName pattern env r₂) :=
  withEnding_eq_iff

variable {s : StoreSettings}

theorem pathFor_eq_iff : pathFor s env r₁ = pathFor s env r₂ ↔
    Clash (bareName s.filePattern env r₁) (bareName s.filePattern env r₂) ∨
      Path.Replaces s.directory (fileNameFor s.filePattern env r₁) (fileNameFor s.filePattern env r₂) ∨
      Path.Replaces s.directory (fileNameFor s.filePattern env r₂) (fileNameFor s.filePattern env r₁) := by
  rw [← fileNameFor_eq_iff]
  exact Path.join_eq_join_iff

/-- Relative names that do not lead upwards lead to one place if they have the same parts. -/
theorem goal_pathFor_eq_iff (habsolute₁ : Path.isAbsolute (fileNameFor s.filePattern env r₁) = false)
    (habsolute₂ : Path.isAbsolute (fileNameFor s.filePattern env r₂) = false)
    (hdown₁ : ".." ∉ Path.parts (fileNameFor s.filePattern env r₁))
    (hdown₂ : ".." ∉ Path.parts (fileNameFor s.filePattern env r₂)) (working : Files.Place) :
    Files.goal working (pathFor s env r₁) = Files.goal working (pathFor s env r₂) ↔
      Path.parts (fileNameFor s.filePattern env r₁) = Path.parts (fileNameFor s.filePattern env r₂) := by
  rw [pathFor, pathFor, Path.goal_join habsolute₁ hdown₁, Path.goal_join habsolute₂ hdown₂, List.append_right_inj]

theorem parts_fileNameFor_eq_iff (h₁ : Path.Plain (fileNameFor s.filePattern env r₁))
    (h₂ : Path.Plain (fileNameFor s.filePattern env r₂)) :
    Path.parts (fileNameFor s.filePattern env r₁) = Path.parts (fileNameFor s.filePattern env r₂) ↔
      Clash (bareName s.filePattern env r₁) (bareName s.filePattern env r₂) := by
  rw [h₁.parts_eq, h₂.parts_eq, ← fileNameFor_eq_iff]
  exact ⟨Path.rawParts_injective, congrArg Path.rawParts⟩

end

end Store
end SignOn
