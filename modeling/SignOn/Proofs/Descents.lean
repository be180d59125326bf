import SignOn.Proofs.Parents
import SignOn.Proofs.Thinning

/-! # Looking into a directory without links

* `descend` enters the parts of a path one after the other.  Without links it is what a path of a name in a directory
  does, failures included: `Disk.entry?_join` gives the entry under the name, or why there is none.  Other names of
  the directory are of no account to it (`Disk.look_eq`).
* A path that leads into a directory leads there as long as the directories stay (`descend_mono`).  One that fails
  does so in the same way as long as all entries stay, unless something was missing (`descend_keeps`).
* In a `Tree.Grounded` tree each entry stands in a directory; so below what is missing there is nothing
  (`Grounded.below`, `Grounded.descend_notFound`).
* Making directories comes to the same at every time but for the times of the new ones
  (`makeDirectories_sameKinds`), and it makes none where they are all there (`makeDirectories_parent`). -/

namespace SignOn

namespace Path

theorem length_splitAt_le (sep : Char) (cs : List Char) : (Text.splitAt sep cs).length ≤ cs.length + 1 := by
  induction cs with
  | nil => exact Nat.le_refl _
  | cons c cs ih =>
      rw [Text.splitAt]
      split
      · simp only [List.length_cons]
        omega
      · split
        · simp
        · next part rest hsplit =>
            rw [hsplit] at ih
            simp only [List.length_cons] at ih ⊢
            omega

theorem length_le_utf8ByteSize (cs : List Char) : cs.length ≤ (String.ofList cs).utf8ByteSize := by
  induction cs with
  | nil => exact Nat.zero_le _
  | cons c cs ih =>
      have hcons : String.ofList (c :: cs) = String.singleton c ++ String.ofList cs := by
        apply String.toList_injective
        simp
      have hsize := Char.utf8Size_pos c
      rw [hcons, String.utf8ByteSize_append, String.utf8ByteSize_singleton, List.length_cons]
      omega

theorem length_parts_le (p : String) : (parts p).length ≤ p.utf8ByteSize + 1 := by
  have hparts : (parts p).length ≤ (rawParts p).length := List.length_filter_le ..
  have hraw : (rawParts p).length ≤ p.toList.length + 1 := by
    rw [rawParts, Text.split, List.length_map]
    exact length_splitAt_le '/' p.toList
  have hbytes := length_le_utf8ByteSize p.toList
  rw [String.ofList_toList] at hbytes
  omega

theorem Simple.fuel_join {name directory : String} (hname : Simple name)
    (hshort : (join directory name).utf8ByteSize ≤ Files.maxPath) :
    (parts directory).length + 2 ≤ 41 * (Files.maxPath + 1) := by
  have hlength := length_parts_le (join directory name)
  rw [hname.parts_join directory, List.length_append, List.length_singleton] at hlength
  unfold Files.maxPath at hshort ⊢
  omega

theorem fixedParts_of_counts {first : String} (hroot : first ≠ "") (hhere : first ≠ ".") (more : List String) :
    fixedParts (first :: more) = 0 := by
  unfold fixedParts
  split
  · next h => exact absurd (List.cons.inj h).1 hroot
  · next h => exact absurd (List.cons.inj h).1 hhere
  · rfl

/-- A last part that counts makes no difference to the parts at the front, and is not one of them. -/
theorem fixedParts_concat {last last' : String} (h : last ≠ "" ∧ last ≠ ".") (h' : last' ≠ "" ∧ last' ≠ ".")
    (init : List String) :
    fixedParts (init ++ [last]) = fixedParts (init ++ [last']) ∧ fixedParts (init ++ [last]) ≤ init.length := by
  cases init with
  | nil =>
      rw [List.nil_append, List.nil_append, fixedParts_of_counts h.1 h.2, fixedParts_of_counts h'.1 h'.2]
      exact ⟨rfl, Nat.le_refl 0⟩
  | cons first rest =>
      rw [List.cons_append, List.cons_append]
      by_cases hroot : first = ""
      · subst hroot
        cases rest with
        | nil => exact ⟨rfl, Nat.le_refl 1⟩
        | cons next others => exact ⟨rfl, Nat.succ_le_succ (Nat.zero_le _)⟩
      · by_cases hhere : first = "."
        · subst hhere
          exact ⟨rfl, Nat.succ_le_succ (Nat.zero_le _)⟩
        · rw [fixedParts_of_counts hroot hhere, fixedParts_of_counts hroot hhere]
          exact ⟨rfl, Nat.zero_le _⟩

/-- What counts of a path is trimmed of nothing, and its parent is what stands before its last part. -/
theorem parent?_of_rawParts {p last : String} {init : List String} (hraw : rawParts p = init ++ [last])
    (hlast : last ≠ "" ∧ last ≠ ".") :
    parent? p = some (ofParts (trimParts (fixedParts (init ++ ["x"])) init)) := by
  have hx : "x" ≠ "" ∧ "x" ≠ "." := by decide
  obtain ⟨hfixed, hle⟩ := fixedParts_concat hlast hx init
  have htrim : trimParts (fixedParts (init ++ [last])) (init ++ [last]) = init ++ [last] := by
    rw [trimParts, List.take_append_of_le_length hle, List.drop_append_of_le_length hle,
      List.reverse_append, List.reverse_singleton, List.singleton_append,
      List.dropWhile_cons_of_neg (by simp [hlast.1, hlast.2]), List.reverse_cons, List.reverse_reverse,
      ← List.append_assoc, List.take_append_drop]
  have hlength : fixedParts (init ++ [last]) < (init ++ [last]).length := by
    rw [List.length_append, List.length_singleton]
    exact Nat.lt_succ_of_le hle
  unfold parent?
  dsimp only
  rw [hraw, htrim, if_pos hlength, List.dropLast_concat, hfixed]

theorem parent?_join {name name' : String} (h : Simple name) (h' : Simple name') (directory : String) :
    parent? (join directory name) = parent? (join directory name') := by
  have hjoin : ∃ x, ∀ n, Simple n → (join directory n).toList = x ++ n.toList := by
    by_cases hempty : directory = ""
    · refine ⟨[], fun n hn => ?_⟩
      rw [join, hn.plain.not_isAbsolute, if_pos (.inr hempty), List.nil_append]
    · by_cases hslash : directory.toList.getLast? = some '/'
      · refine ⟨directory.toList, fun n hn => ?_⟩
        rw [join, hn.plain.not_isAbsolute, if_neg (by simp [hempty]), if_pos hslash, String.toList_append]
      · refine ⟨(directory ++ "/").toList, fun n hn => ?_⟩
        rw [join, hn.plain.not_isAbsolute, if_neg (by simp [hempty]), if_neg hslash, String.toList_append]
  obtain ⟨x, hx⟩ := hjoin
  obtain ⟨init, last, hsplit⟩ := Text.exists_splitAt_append '/' x
  have hparent : ∀ n, Simple n → parent? (join directory n) =
      some (ofParts (trimParts (fixedParts (init.map String.ofList ++ ["x"])) (init.map String.ofList))) := by
    intro n hn
    have hraw : rawParts (join directory n) = init.map String.ofList ++ [String.ofList (last ++ n.toList)] := by
      rw [rawParts, Text.split, hx n hn, hsplit _ hn.whole, List.map_append]
      rfl
    have hcounts := hn.plain n (hn.rawParts_eq ▸ List.mem_singleton_self n)
    refine parent?_of_rawParts hraw ⟨?_, ?_⟩
    · intro h
      have hlist := congrArg String.toList h
      rw [String.toList_ofList] at hlist
      exact hcounts.1 (String.toList_eq_nil_iff.mp (List.append_eq_nil_iff.mp hlist).2)
    · intro h
      have hlist := congrArg String.toList h
      rw [String.toList_ofList] at hlist
      have hdot : (".").toList = ['.'] := by decide
      rw [hdot] at hlist
      rcases List.append_eq_singleton_iff.mp hlist with ⟨-, hname⟩ | ⟨-, hname⟩
      · exact hcounts.2.1 (String.toList_injective (hname.trans hdot.symm))
      · exact hcounts.1 (String.toList_eq_nil_iff.mp hname)
  rw [hparent name h, hparent name' h']

/-- All parts lead downwards, and none is too long for a name. -/
def Straight (ps : List String) : Prop :=
  ∀ part ∈ ps, part ≠ ".." ∧ part.utf8ByteSize ≤ Files.maxName

end Path

namespace Files

open SignOn.Files.Tree

/-! ### Descending -/

/-- Enter the parts of a path one after the other, and each of them as a directory. -/
def descend (t : Tree) : Place → List String → Except FileError Place
  | place, [] =>
    match t.get? place with
    | some (.directory _) => .ok place
    | some _ => .error .notDirectory
    | none => .error .notFound
  | place, part :: rest =>
    match t.get? place with
    | some (.directory _) =>
      if part = ".." then descend t place.dropLast rest
      else if part.utf8ByteSize > maxName then .error .nameTooLong
      else descend t (place ++ [part]) rest
    | some _ => .error .notDirectory
    | none => .error .notFound

section

variable {t t' : Tree} {place q : Place} {ps : List String} {name : String}

theorem descend_nil {m : Int} (h : t.get? place = some (.directory m)) : descend t place [] = .ok place := by
  rw [descend, h]

theorem descend_cons {m : Int} (h : t.get? place = some (.directory m)) (part : String) (rest : List String) :
    descend t place (part :: rest) = if part = ".." then descend t place.dropLast rest
      else if part.utf8ByteSize > maxName then .error .nameTooLong else descend t (place ++ [part]) rest := by
  rw [descend, h]

theorem descend_of_none (h : t.get? place = none) (ps : List String) : descend t place ps = .error .notFound := by
  cases ps <;> rw [descend, h]

theorem descend_of_file {c : Content} {m : Int} (h : t.get? place = some (.file c m)) (ps : List String) :
    descend t place ps = .error .notDirectory := by
  cases ps <;> rw [descend, h]

theorem walk_concat (ht : t.LinkFree) (hup : name ≠ "..") {f : Bool} {fuel links : Nat}
    (hfuel : ps.length + 2 ≤ fuel) :
    walk t f fuel links place (ps ++ [name]) =
      match descend t place ps with
      | .error e => .error e
      | .ok above => if name.utf8ByteSize > maxName then .error .nameTooLong else .ok (above ++ [name]) := by
  induction ps generalizing fuel place with
  | nil =>
      obtain ⟨fuel, rfl⟩ : ∃ n, fuel = n + 2 := ⟨fuel - 2, by omega⟩
      rw [List.nil_append, walk]
      cases hplace : t.get? place with
      | none => rw [descend_of_none hplace]
      | some e =>
          cases e with
          | file c m => rw [descend_of_file hplace]
          | link target => exact absurd hplace (ht place target)
          | directory m =>
              rw [descend_nil hplace]
              dsimp only
              rw [if_neg hup]
              split
              · rfl
              · cases hnext : t.get? (place ++ [name]) with
                | none => rfl
                | some e =>
                    cases e with
                    | file c m => rfl
                    | link target => exact absurd hnext (ht _ target)
                    | directory m => rfl
  | cons part rest ih =>
      obtain ⟨fuel, rfl⟩ : ∃ n, fuel = n + 1 := ⟨fuel - 1, by simp at hfuel; omega⟩
      have hmore : rest ++ [name] ≠ [] := List.concat_ne_nil name rest
      have hfuel' : rest.length + 2 ≤ fuel := by
        simp only [List.length_cons] at hfuel
        omega
      rw [List.cons_append, walk]
      cases hplace : t.get? place with
      | none => rw [descend_of_none hplace]
      | some e =>
          cases e with
          | file c m => rw [descend_of_file hplace]
          | link target => exact absurd hplace (ht place target)
          | directory m =>
              rw [descend_cons hplace]
              dsimp only
              split
              · exact ih hfuel'
              · split
                · rfl
                · cases hnext : t.get? (place ++ [part]) with
                  | none =>
                      rw [descend_of_none hnext]
                  | some e =>
                      cases e with
                      | file c m =>
                          rw [descend_of_file hnext]
                      | link target => exact absurd hnext (ht _ target)
                      | directory m => exact ih hfuel'

theorem descend_eq_ok (h : descend t place ps = .ok q) :
    q = ps.foldl enter place ∧ ∀ init, init <+: ps → t.HasDirectory (init.foldl enter place) := by
  induction ps generalizing place with
  | nil =>
      rw [descend] at h
      split at h
      · next m hplace =>
          refine ⟨(Except.ok.inj h).symm, fun init hinit => ?_⟩
          rw [List.prefix_nil.mp hinit]
          exact ⟨m, hplace⟩
      · cases h
      · cases h
  | cons part rest ih =>
      rw [descend] at h
      split at h
      · next m hplace =>
          have hnext : descend t (enter place part) rest = .ok q := by
            unfold enter
            split at h
            · next hup =>
                rw [if_pos hup]
                exact h
            · next hup =>
                rw [if_neg hup]
                split at h
                · cases h
                · exact h
          obtain ⟨hq, hdirs⟩ := ih hnext
          refine ⟨hq, fun init hinit => ?_⟩
          cases init with
          | nil => exact ⟨m, hplace⟩
          | cons first init =>
              obtain ⟨rfl, hrest⟩ := List.cons_prefix_cons.mp hinit
              exact hdirs init hrest
      · cases h
      · cases h

theorem hasDirectory_of_descend (h : descend t place ps = .ok q) : t.HasDirectory q := by
  obtain ⟨rfl, hdirs⟩ := descend_eq_ok h
  exact hdirs ps (List.prefix_refl ps)

theorem walk_of_descend {f : Bool} {fuel links : Nat} (h : descend t place ps = .ok q) (hfuel : ps.length < fuel) :
    walk t f fuel links place ps = .ok q := by
  induction ps generalizing fuel place with
  | nil =>
      obtain ⟨fuel, rfl⟩ : ∃ n, fuel = n + 1 := ⟨fuel - 1, by simp at hfuel; omega⟩
      obtain ⟨rfl, -⟩ := descend_eq_ok h
      rfl
  | cons part rest ih =>
      obtain ⟨fuel, rfl⟩ : ∃ n, fuel = n + 1 := ⟨fuel - 1, by simp at hfuel; omega⟩
      have hfuel' : rest.length < fuel := by
        simp only [List.length_cons] at hfuel
        omega
      have hplace : t.HasDirectory place := (descend_eq_ok h).2 [] List.nil_prefix
      obtain ⟨m, hm⟩ := hplace
      rw [descend_cons hm] at h
      by_cases hup : part = ".."
      · rw [if_pos hup] at h
        rw [hup, walk_up ⟨m, hm⟩]
        exact ih h hfuel'
      · rw [if_neg hup] at h
        by_cases hlen : part.utf8ByteSize > maxName
        · rw [if_pos hlen] at h
          cases h
        · rw [if_neg hlen] at h
          have hlook : Looks t place part := ⟨⟨m, hm⟩, hup, Nat.not_lt.mp hlen⟩
          rw [hlook.walk_down _ _ _ _ ((descend_eq_ok h).2 [] List.nil_prefix)]
          exact ih h hfuel'

/-- Behind a directory that the first parts lead to, the other parts lead on from it. -/
theorem descend_append {first : List String} (h : descend t place first = .ok q) (rest : List String) :
    descend t place (first ++ rest) = descend t q rest := by
  induction first generalizing place with
  | nil =>
      obtain ⟨rfl, -⟩ := descend_eq_ok h
      rfl
  | cons part first ih =>
      obtain ⟨m, hm⟩ := (descend_eq_ok h).2 [] List.nil_prefix
      rw [List.foldl_nil] at hm
      rw [List.cons_append, descend_cons hm]
      rw [descend_cons hm] at h
      split
      · next hup =>
          rw [if_pos hup] at h
          exact ih h
      · next hup =>
          rw [if_neg hup] at h
          split at h
          · cases h
          · next hlen =>
              rw [if_neg hlen]
              exact ih h

/-- As long as the directories stay, a path leads down to the same one. -/
theorem descend_mono (hdirs : ∀ p, t.HasDirectory p → t'.HasDirectory p) (h : descend t place ps = .ok q) :
    descend t' place ps = .ok q := by
  induction ps generalizing place with
  | nil =>
      rw [descend] at h
      split at h
      · next m hplace =>
          obtain ⟨m', hm'⟩ := hdirs place ⟨m, hplace⟩
          rw [descend_nil hm']
          exact h
      · cases h
      · cases h
  | cons part rest ih =>
      rw [descend] at h
      split at h
      · next m hplace =>
          obtain ⟨m', hm'⟩ := hdirs place ⟨m, hplace⟩
          rw [descend_cons hm']
          split at h
          · next hup =>
              rw [if_pos hup]
              exact ih h
          · next hup =>
              rw [if_neg hup]
              split at h
              · cases h
              · next hlen =>
                  rw [if_neg hlen]
                  exact ih h
      · cases h
      · cases h

/-- As long as all entries on the way stay, a path leads down in the same way, unless something was missing. -/
theorem descend_keeps (ht : t.LinkFree)
    (hkeep : ∀ init, init <+: ps → ∀ e, t.get? (init.foldl enter place) = some e →
      t'.get? (init.foldl enter place) = some e) :
    descend t' place ps = descend t place ps ∨ descend t place ps = .error .notFound := by
  induction ps generalizing place with
  | nil =>
      have hhere := hkeep [] (List.nil_prefix)
      rw [List.foldl_nil] at hhere
      cases hplace : t.get? place with
      | none => exact .inr (descend_of_none hplace [])
      | some e =>
          left
          rw [descend, descend, hplace, hhere e hplace]
  | cons part rest ih =>
      have hhere := hkeep [] (List.nil_prefix)
      rw [List.foldl_nil] at hhere
      cases hplace : t.get? place with
      | none => exact .inr (descend_of_none hplace _)
      | some e =>
          have hplace' := hhere e hplace
          cases e with
          | file c m => exact .inl ((descend_of_file hplace' _).trans (descend_of_file hplace _).symm)
          | link target => exact absurd hplace (ht place target)
          | directory m =>
              have hnext : descend t' (enter place part) rest = descend t (enter place part) rest ∨
                  descend t (enter place part) rest = .error .notFound := by
                apply ih
                intro init hinit
                exact hkeep (part :: init) (List.cons_prefix_cons.mpr ⟨rfl, hinit⟩)
              rw [descend_cons hplace, descend_cons hplace']
              unfold enter at hnext
              split
              · next hup =>
                  rw [if_pos hup] at hnext
                  exact hnext
              · next hup =>
                  rw [if_neg hup] at hnext
                  split
                  · exact .inl rfl
                  · exact hnext

/-! ### Straight ways down -/

theorem foldl_enter_straight (hps : Path.Straight ps) (place : Place) : ps.foldl enter place = place ++ ps :=
  Path.foldl_enter (fun part hpart => (hps part hpart).1) place

/-- Each entry stands in a directory, as in every system of files. -/
def Tree.Grounded (t : Tree) : Prop :=
  ∀ p name, t.get? (p ++ [name]) ≠ none → t.HasDirectory p

theorem Tree.Grounded.erase (ht : t.Grounded) (hq : ¬ t.HasDirectory q) : (t.erase q).Grounded := by
  intro p name h
  by_cases hp : p ++ [name] = q
  · have hne : q ≠ [] := hp ▸ List.concat_ne_nil name p
    rw [hp, get?_erase_self hne] at h
    exact absurd rfl h
  · rw [get?_erase_of_ne hp] at h
    exact (hasDirectory_erase hq p).mpr (ht p name h)

/-- Below what is missing there is nothing. -/
theorem Tree.Grounded.below (ht : t.Grounded) {p : Place} (hp : t.get? p = none) (more : List String) :
    t.get? (p ++ more) = none := by
  induction more generalizing p with
  | nil =>
      rw [List.append_nil]
      exact hp
  | cons name more ih =>
      have hname : t.get? (p ++ [name]) = none := by
        apply Decidable.not_not.mp
        intro hsome
        obtain ⟨m, hm⟩ := ht p name hsome
        rw [hp] at hm
        cases hm
      have hmore := ih hname
      rwa [List.append_assoc, List.singleton_append] at hmore

/-- A straight way that fails for want of something finds nothing or directories, and nothing at its end. -/
theorem Tree.Grounded.descend_notFound (ht : t.Grounded) (hfree : t.LinkFree) (hps : Path.Straight ps)
    (h : descend t place ps = .error .notFound) :
    (∀ init, init <+: ps → t.get? (place ++ init) = none ∨ t.HasDirectory (place ++ init)) ∧
      ∀ name, t.get? (place ++ ps ++ [name]) = none := by
  induction ps generalizing place with
  | nil =>
      cases hplace : t.get? place with
      | none =>
          refine ⟨fun init hinit => ?_, fun name => ?_⟩
          · rw [List.prefix_nil.mp hinit, List.append_nil]
            exact .inl hplace
          · rw [List.append_nil]
            exact ht.below hplace [name]
      | some e =>
          rw [descend, hplace] at h
          cases e <;> cases h
  | cons part rest ih =>
      cases hplace : t.get? place with
      | none =>
          refine ⟨fun init _ => .inl (ht.below hplace init), fun name => ?_⟩
          rw [List.append_assoc]
          exact ht.below hplace _
      | some e =>
          cases e with
          | file c m =>
              rw [descend_of_file hplace] at h
              cases h
          | link target => exact absurd hplace (hfree place target)
          | directory m =>
              obtain ⟨hpart, hrest⟩ := List.forall_mem_cons.mp hps
              rw [descend_cons hplace, if_neg hpart.1, if_neg (Nat.not_lt.mpr hpart.2)] at h
              obtain ⟨hprefixes, hend⟩ := ih hrest h
              refine ⟨fun init hinit => ?_, fun name => ?_⟩
              · cases init with
                | nil =>
                    rw [List.append_nil]
                    exact .inr ⟨m, hplace⟩
                | cons first init =>
                    obtain ⟨rfl, hinit'⟩ := List.cons_prefix_cons.mp hinit
                    have hnext := hprefixes init hinit'
                    rwa [List.append_assoc, List.singleton_append] at hnext
              · have hnext := hend name
                rwa [List.append_assoc place, List.singleton_append] at hnext

/-- A straight way through nothing or directories leads down to its end, or something is missing. -/
theorem descend_straight (hps : Path.Straight ps)
    (h : ∀ init, init <+: ps → t.get? (place ++ init) = none ∨ t.HasDirectory (place ++ init)) :
    descend t place ps = .ok (place ++ ps) ∨ descend t place ps = .error .notFound := by
  induction ps generalizing place with
  | nil =>
      have hhere := h [] List.nil_prefix
      rw [List.append_nil] at hhere ⊢
      rcases hhere with hnone | ⟨m, hm⟩
      · exact .inr (descend_of_none hnone [])
      · exact .inl (descend_nil hm)
  | cons part rest ih =>
      have hhere := h [] List.nil_prefix
      rw [List.append_nil] at hhere
      rcases hhere with hnone | ⟨m, hm⟩
      · exact .inr (descend_of_none hnone _)
      · obtain ⟨hpart, hrest⟩ := List.forall_mem_cons.mp hps
        rw [descend_cons hm, if_neg hpart.1, if_neg (Nat.not_lt.mpr hpart.2)]
        have hnext : descend t (place ++ [part]) rest = .ok (place ++ [part] ++ rest) ∨
            descend t (place ++ [part]) rest = .error .notFound := by
          apply ih hrest
          intro init hinit
          rw [List.append_assoc, List.singleton_append]
          exact h (part :: init) (List.cons_prefix_cons.mpr ⟨rfl, hinit⟩)
        rwa [List.append_assoc, List.singleton_append] at hnext

/-- Where a straight way fails, it fails in the same way when directories have been made on it, or it leads to a
directory that is new. -/
theorem descend_of_made (ht : t.LinkFree) (hground : t.Grounded) (hps : Path.Straight ps)
    (hway : ∀ init, init <+: ps → t'.get? (place ++ init) = t.get? (place ++ init) ∨
      t.get? (place ++ init) = none ∧ t'.HasDirectory (place ++ init))
    {e : FileError} (h : descend t place ps = .error e) :
    descend t' place ps = .error e ∨
      e = .notFound ∧ descend t' place ps = .ok (place ++ ps) ∧ ∀ name, t.get? (place ++ ps ++ [name]) = none := by
  have hstraight : ∀ init, init <+: ps → init.foldl enter place = place ++ init := fun init hinit =>
    foldl_enter_straight (fun part hpart => hps part (hinit.subset hpart)) place
  have hkeep : ∀ init, init <+: ps → ∀ e, t.get? (init.foldl enter place) = some e →
      t'.get? (init.foldl enter place) = some e := by
    intro init hinit e he
    rw [hstraight init hinit] at he ⊢
    rcases hway init hinit with hkept | ⟨hnone, -⟩
    · exact hkept.trans he
    · rw [hnone] at he
      cases he
  rcases descend_keeps ht hkeep with hsame | hmissing
  · exact .inl (hsame.trans h)
  · obtain rfl : e = .notFound := by
      rw [h] at hmissing
      exact Except.error.inj hmissing
    obtain ⟨hplaces, hnone⟩ := hground.descend_notFound ht hps h
    have hplaces' : ∀ init, init <+: ps → t'.get? (place ++ init) = none ∨ t'.HasDirectory (place ++ init) := by
      intro init hinit
      rcases hway init hinit with hkept | ⟨-, hmade⟩
      · unfold Tree.HasDirectory
        rw [hkept]
        exact hplaces init hinit
      · exact .inr hmade
    rcases descend_straight hps hplaces' with hleads | hfails
    · exact .inr ⟨rfl, hleads, hnone⟩
    · exact .inl hfails

end

/-! ### Entries of a directory -/

namespace Disk

variable {d d' : Disk} {directory name path : String} {now now' : Int} {q : Place}

/-- The place that the path of a directory descends to. -/
def folder (d : Disk) (directory : String) : Except FileError Place :=
  descend d.tree (if Path.isAbsolute directory then [] else d.working) (Path.parts directory)

/-- The entry under a name in a directory. -/
def look (d : Disk) (directory name : String) : Except FileError (Place × Entry) :=
  match d.folder directory with
  | .error e => .error e
  | .ok above =>
    if name.utf8ByteSize > maxName then .error .nameTooLong
    else
      match d.tree.get? (above ++ [name]) with
      | some e => .ok (above ++ [name], e)
      | none => .error .notFound

/-- The path of a name in a directory leads nowhere, whatever stands in the tree, or without links it leads to the
entry under the name. -/
theorem entry?_join (hname : Path.Simple name) (directory : String) :
    (∃ e, ∀ (d : Disk) f, d.entry? f (Path.join directory name) = .error e) ∨
      ∀ (d : Disk) f, d.tree.LinkFree → d.entry? f (Path.join directory name) = d.look directory name := by
  rcases resolve_cases (Path.join directory name) with hempty | ⟨e, -, hnowhere⟩ | husable
  · left
    rw [hempty]
    exact ⟨.notFound, fun d f => rfl⟩
  · left
    refine ⟨e, fun d f => ?_⟩
    unfold entry?
    rw [hnowhere]
  · right
    intro d f hd
    unfold entry?
    rw [resolve_eq_walk husable, hname.parts_join, Path.isAbsolute_join directory hname.plain.not_isAbsolute,
      walk_concat hd hname.ne_up (hname.fuel_join husable.2.2), look, folder]
    cases descend d.tree (if Path.isAbsolute directory then [] else d.working) (Path.parts directory) with
    | error e => rfl
    | ok above =>
        dsimp only
        by_cases hlong : name.utf8ByteSize > maxName
        · rw [if_pos hlong, if_pos hlong]
        · rw [if_neg hlong]
          exact (if_neg hlong).symm

theorem folder_of_resolve (hd : d.tree.LinkFree) (hname : Path.Simple name) {f : Bool}
    (h : d.resolve f (Path.join directory name) = .ok q) : ∃ above, d.folder directory = .ok above := by
  rcases resolve_cases (Path.join directory name) with hempty | ⟨e, -, hnowhere⟩ | husable
  · rw [hempty] at h
    cases h
  · rw [hnowhere] at h
    cases h
  · rw [resolve_eq_walk husable, hname.parts_join, walk_concat hd hname.ne_up (hname.fuel_join husable.2.2),
      Path.isAbsolute_join directory hname.plain.not_isAbsolute] at h
    unfold folder
    cases hfolder : descend d.tree (if Path.isAbsolute directory then [] else d.working) (Path.parts directory) with
    | error e =>
        rw [hfolder] at h
        cases h
    | ok above => exact ⟨above, rfl⟩

theorem folder_mono (hworking : d'.working = d.working)
    (hdirs : ∀ p, d.tree.HasDirectory p → d'.tree.HasDirectory p) (h : d.folder directory = .ok q) :
    d'.folder directory = .ok q := by
  unfold folder at h ⊢
  rw [hworking]
  exact descend_mono hdirs h

theorem folder_eq_ok (h : d.folder directory = .ok q) : q = goal d.working directory ∧
    ∀ init, init <+: Path.parts directory →
      d.tree.HasDirectory (init.foldl enter (if Path.isAbsolute directory then [] else d.working)) :=
  descend_eq_ok h

/-- Each entry of the tree stands in a directory, and behind the directories that are there the way to a name in a
directory has no turns upwards and no names that are too long. -/
structure Passable (d : Disk) (directory name : String) : Prop where
  grounded : d.tree.Grounded
  way : ∃ first rest, Path.parts directory = first ++ rest ∧
    (first = [] ∨ ∃ q, descend d.tree (if Path.isAbsolute directory then [] else d.working) first = .ok q) ∧
    Path.Straight (rest ++ [name])

/-- A passable way leads straight down from a place, as long as the directories in front of it stay. -/
theorem Passable.straight (h : d.Passable directory name) : ∃ rest place, Path.Straight (rest ++ [name]) ∧
    goal d.working directory = place ++ rest ∧
    (∀ d' : Disk, d'.working = d.working → (∀ p, d.tree.HasDirectory p → d'.tree.HasDirectory p) →
      d'.folder directory = descend d'.tree place rest) ∧
    ∀ whole, whole <+: Path.parts directory →
      d.tree.HasDirectory (whole.foldl enter (if Path.isAbsolute directory then [] else d.working)) ∨
        ∃ init, init <+: rest ∧
          whole.foldl enter (if Path.isAbsolute directory then [] else d.working) = place ++ init := by
  obtain ⟨first, rest, hparts, hfirst, hstraight⟩ := h.way
  have hrest : Path.Straight rest := fun part hpart => hstraight part (List.mem_append_left _ hpart)
  unfold goal
  rw [hparts]
  generalize hbase : (if Path.isAbsolute directory then [] else d.working) = base at hfirst ⊢
  have hplace : ∀ init, init <+: rest → (first ++ init).foldl enter base = first.foldl enter base ++ init := by
    intro init hinit
    rw [List.foldl_append, foldl_enter_straight fun part hpart => hrest part (hinit.subset hpart)]
  refine ⟨rest, first.foldl enter base, hstraight, hplace rest (List.prefix_refl rest), ?_, ?_⟩
  · intro d' hworking hdirs
    rw [folder, hworking, hbase, hparts]
    rcases hfirst with rfl | ⟨q, hq⟩
    · rfl
    · rw [descend_append (descend_mono hdirs hq), (descend_eq_ok hq).1]
  · intro whole hwhole
    rcases List.prefix_or_prefix_of_prefix hwhole (List.prefix_append first rest) with hfront | ⟨init, rfl⟩
    · rcases hfirst with rfl | ⟨q, hq⟩
      · obtain rfl := List.prefix_nil.mp hfront
        exact .inr ⟨[], List.nil_prefix, (List.append_nil _).symm⟩
      · exact .inl ((descend_eq_ok hq).2 whole hfront)
    · have hinit := (List.prefix_append_right_inj first).mp hwhole
      exact .inr ⟨init, hinit, hplace init hinit⟩

section

variable {name₁ name₂ : String}

/-- On a straight way to a name the reason why nothing is found stays the same when directories are made on the way
and entries other than that of the name change in the directory. -/
theorem look_of_straight (hd : d.tree.LinkFree) (hground : d.tree.Grounded) {place : Place} {rest : List String}
    (hstraight : Path.Straight (rest ++ [name])) (hfolder : d.folder directory = descend d.tree place rest)
    (hfolder' : d'.folder directory = descend d'.tree place rest)
    (hway : ∀ init, init <+: rest → d'.tree.get? (place ++ init) = d.tree.get? (place ++ init) ∨
      d.tree.get? (place ++ init) = none ∧ d'.tree.HasDirectory (place ++ init))
    (hend : d'.tree.get? (place ++ rest ++ [name]) = d.tree.get? (place ++ rest ++ [name])) {e : FileError}
    (h : d.folder directory = .error e) : d'.look directory name = .error e := by
  have hrest : Path.Straight rest := fun part hpart => hstraight part (List.mem_append_left _ hpart)
  have hshort : ¬ name.utf8ByteSize > maxName :=
    Nat.not_lt.mpr (hstraight name (List.mem_append_right _ (List.mem_singleton_self name))).2
  rw [hfolder] at h
  unfold look
  rw [hfolder']
  rcases descend_of_made hd hground hrest hway h with hfails | ⟨rfl, hleads, hnone⟩
  · rw [hfails]
  · rw [hleads]
    dsimp only
    rw [if_neg hshort, hend, hnone name]

/-- Two other names of a directory, and directories that are made on the way to it, are of no account to the entry
under a name, if the directory is there or the way to it is passable. -/
theorem look_eq (hd : d.tree.LinkFree) (hworking : d'.working = d.working)
    (hdirs : ∀ p, d.tree.HasDirectory p → d'.tree.HasDirectory p) (hne₁ : name ≠ name₁) (hne₂ : name ≠ name₂)
    (hsame : ∀ p, p ≠ goal d.working directory ++ [name₁] → p ≠ goal d.working directory ++ [name₂] →
      d'.tree.get? p = d.tree.get? p ∨ d.tree.get? p = none ∧ d'.tree.HasDirectory p ∧
        ∃ init, init <+: Path.parts directory ∧
          p = init.foldl enter (if Path.isAbsolute directory then [] else d.working))
    (hready : (∃ q, d.folder directory = .ok q) ∨ d.Passable directory name) :
    d'.look directory name = d.look directory name := by
  have hother : ∀ {last : String}, name ≠ last →
      goal d.working directory ++ [name] ≠ goal d.working directory ++ [last] := fun hne h =>
    hne (List.singleton_inj.mp (List.append_cancel_left h))
  have hend := hsame (goal d.working directory ++ [name]) (hother hne₁) (hother hne₂)
  cases hfolder : d.folder directory with
  | ok q =>
      obtain ⟨hq, hway⟩ := folder_eq_ok hfolder
      have hentry : d'.tree.get? (q ++ [name]) = d.tree.get? (q ++ [name]) := by
        rw [hq]
        apply hend.resolve_right
        rintro ⟨hnone, -, init, hinit, hp⟩
        obtain ⟨m, hm⟩ := hway init hinit
        rw [hp, hm] at hnone
        cases hnone
      unfold look
      rw [folder_mono hworking hdirs hfolder, hfolder]
      dsimp only
      rw [hentry]
  | error e =>
      have hpassable : d.Passable directory name := by
        rcases hready with ⟨q, hq⟩ | hpassable
        · rw [hfolder] at hq
          cases hq
        · exact hpassable
      obtain ⟨rest, place, hstraight, hgoal, hleads, hplace⟩ := hpassable.straight
      have hshorter : ∀ init, init <+: rest → ∀ last : String,
          place ++ init ≠ goal d.working directory ++ [last] := by
        intro init hinit last heq
        have hlength := hinit.length_le
        have hlengths := congrArg List.length heq
        rw [hgoal] at hlengths
        simp only [List.length_append, List.length_singleton] at hlengths
        omega
      have hlook : d.look directory name = .error e := by
        unfold look
        rw [hfolder]
      rw [hlook]
      refine look_of_straight hd hpassable.grounded hstraight (hleads d rfl fun _ => id) (hleads d' hworking hdirs)
        (fun init hinit => ?_) ?_ hfolder
      · exact (hsame _ (hshorter init hinit name₁) (hshorter init hinit name₂)).imp_right fun h => ⟨h.1, h.2.1⟩
      · rw [← hgoal]
        refine hend.resolve_right ?_
        rintro ⟨hnone, -, whole, hprefix, hp⟩
        rcases hplace whole hprefix with ⟨m, hm⟩ | ⟨init, hinit, heq⟩
        · rw [← hp, hnone] at hm
          cases hm
        · exact hshorter init hinit name (heq.symm.trans hp.symm)

end

/-! ### Making directories -/

theorem makeDirectoriesFrom_empty (now : Int) (fuel : Nat) (d : Disk) :
    makeDirectoriesFrom now fuel d "" = (d, none) := by
  unfold makeDirectoriesFrom
  rfl

/-- Unless something is missing, the directory is made, or not, without a look at those above. -/
theorem makeDirectoriesFrom_settled (hpath : path ≠ "") (fuel : Nat)
    (h : d.makeDirectory now path ≠ .error .notFound) :
    makeDirectoriesFrom now fuel d path = d.settled path (d.makeDirectory now path) := by
  unfold makeDirectoriesFrom
  rw [if_neg hpath]
  split
  · next hmade _ => exact absurd hmade h
  · next hmade _ => exact absurd hmade h
  · rfl

theorem makeDirectoriesFrom_above (hpath : path ≠ "") {fuel : Nat} {above : String}
    (h : d.makeDirectory now path = .error .notFound) (habove : Path.parent? path = some above) :
    makeDirectoriesFrom now (fuel + 1) d path =
      match makeDirectoriesFrom now fuel d above with
      | (d, some e) => (d, some e)
      | (d, none) => d.settled path (d.makeDirectory now path) := by
  conv => lhs; unfold makeDirectoriesFrom
  rw [if_neg hpath, h, habove]
  rfl

theorem makeDirectoriesFrom_stuck (hpath : path ≠ "") {fuel : Nat} (h : d.makeDirectory now path = .error .notFound)
    (hstuck : fuel = 0 ∨ Path.parent? path = none) :
    makeDirectoriesFrom now fuel d path = (d, some .notFound) := by
  unfold makeDirectoriesFrom
  rw [if_neg hpath, h]
  split
  · next habove =>
      rcases hstuck with hzero | hnone
      · cases hzero
      · rw [hnone] at habove
        cases habove
  · rfl
  · next hother _ => exact absurd rfl hother

/-- Two disks whose trees differ in the times of directories at most. -/
structure SameKinds (d d' : Disk) : Prop where
  working : d'.working = d.working
  tree : ∀ p, d'.tree.get? p = d.tree.get? p ∨ (d.tree.HasDirectory p ∧ d'.tree.HasDirectory p)

namespace SameKinds

theorem refl (d : Disk) : SameKinds d d := ⟨rfl, fun _ => .inl rfl⟩

variable (h : SameKinds d d')

include h

theorem hasDirectory_iff (p : Place) : d'.tree.HasDirectory p ↔ d.tree.HasDirectory p := by
  unfold Tree.HasDirectory
  rcases h.tree p with hsame | ⟨hdir, hdir'⟩
  · rw [hsame]
  · exact ⟨fun _ => hdir, fun _ => hdir'⟩

theorem walk_eq (f : Bool) (fuel links : Nat) (place : Place) (ps : List String) :
    walk d'.tree f fuel links place ps = walk d.tree f fuel links place ps :=
  walk_of_looked fun r _ => h.tree r

theorem resolve_eq (f : Bool) (path : String) : d'.resolve f path = d.resolve f path := by
  unfold resolve
  rw [h.working, h.walk_eq]

theorem isDirectory_eq (path : String) : d'.isDirectory path = d.isDirectory path := by
  unfold isDirectory entry?
  rw [h.resolve_eq]
  cases d.resolve true path with
  | error e => rfl
  | ok q =>
      dsimp only
      rcases h.tree q with hsame | ⟨⟨m, hm⟩, m', hm'⟩
      · rw [hsame]
      · rw [hm, hm']

theorem makeDirectory (now now' : Int) (path : String) :
    (∃ e, d.makeDirectory now path = .error e ∧ d'.makeDirectory now' path = .error e) ∨
      ∃ e e', d.makeDirectory now path = .ok e ∧ d'.makeDirectory now' path = .ok e' ∧ SameKinds e e' := by
  unfold Disk.makeDirectory
  rw [h.resolve_eq]
  cases d.resolve false path with
  | error e => exact .inl ⟨e, rfl, rfl⟩
  | ok q =>
      dsimp only
      rcases h.tree q with hsame | ⟨⟨m, hm⟩, m', hm'⟩
      · rw [hsame]
        cases hq : d.tree.get? q with
        | some e => exact .inl ⟨_, rfl, rfl⟩
        | none =>
            have hne : q ≠ [] := by
              rintro rfl
              cases hq
            refine .inr ⟨_, _, rfl, rfl, h.working, fun p => ?_⟩
            by_cases hp : p = q
            · rw [hp]
              exact .inr ⟨⟨now, get?_set_self _ hne⟩, now', get?_set_self _ hne⟩
            · unfold Tree.HasDirectory
              simp only [changed_tree, get?_set_of_ne _ hp]
              exact h.tree p
      · rw [hm, hm']
        exact .inl ⟨_, rfl, rfl⟩

theorem makeDirectory_notFound_iff (now now' : Int) (path : String) :
    d'.makeDirectory now' path = .error .notFound ↔ d.makeDirectory now path = .error .notFound := by
  rcases h.makeDirectory now now' path with ⟨e, hmade, hmade'⟩ | ⟨e, e', hmade, hmade', -⟩
  · rw [hmade, hmade']
  · simp [hmade, hmade']

theorem settled (now now' : Int) (path : String) :
    (d'.settled path (d'.makeDirectory now' path)).2 = (d.settled path (d.makeDirectory now path)).2 ∧
      SameKinds (d.settled path (d.makeDirectory now path)).1 (d'.settled path (d'.makeDirectory now' path)).1 := by
  rcases h.makeDirectory now now' path with ⟨e, hmade, hmade'⟩ | ⟨e, e', hmade, hmade', hsame⟩
  · rw [hmade, hmade', Disk.settled, Disk.settled, h.isDirectory_eq]
    exact ⟨rfl, h⟩
  · rw [hmade, hmade']
    exact ⟨rfl, hsame⟩

/-- Where nothing is missing above the path, its directory is made in both, or in neither. -/
theorem makeDirectoriesFrom_of_ready (now now' : Int) (fuel : Nat) {path : String}
    (hready : path = "" ∨ d.makeDirectory now path ≠ .error .notFound) :
    (Disk.makeDirectoriesFrom now' fuel d' path).2 = (Disk.makeDirectoriesFrom now fuel d path).2 ∧
      SameKinds (Disk.makeDirectoriesFrom now fuel d path).1 (Disk.makeDirectoriesFrom now' fuel d' path).1 := by
  by_cases hpath : path = ""
  · rw [hpath, makeDirectoriesFrom_empty, makeDirectoriesFrom_empty]
    exact ⟨rfl, h⟩
  · have hmade := hready.resolve_left hpath
    have hmade' := mt (h.makeDirectory_notFound_iff now now' path).mp hmade
    rw [makeDirectoriesFrom_settled hpath fuel hmade, makeDirectoriesFrom_settled hpath fuel hmade']
    exact h.settled now now' path

theorem makeDirectoriesFrom (now now' : Int) (fuel : Nat) (path : String) :
    (Disk.makeDirectoriesFrom now' fuel d' path).2 = (Disk.makeDirectoriesFrom now fuel d path).2 ∧
      SameKinds (Disk.makeDirectoriesFrom now fuel d path).1 (Disk.makeDirectoriesFrom now' fuel d' path).1 := by
  induction fuel generalizing d d' path with
  | zero =>
      by_cases hready : path = "" ∨ d.makeDirectory now path ≠ .error .notFound
      · exact h.makeDirectoriesFrom_of_ready now now' 0 hready
      · obtain ⟨hpath, hmissing⟩ := not_or.mp hready
        have hmissing := Classical.not_not.mp hmissing
        have hmissing' := (h.makeDirectory_notFound_iff now now' path).mpr hmissing
        rw [makeDirectoriesFrom_stuck hpath hmissing (.inl rfl), makeDirectoriesFrom_stuck hpath hmissing' (.inl rfl)]
        exact ⟨rfl, h⟩
  | succ fuel ih =>
      by_cases hready : path = "" ∨ d.makeDirectory now path ≠ .error .notFound
      · exact h.makeDirectoriesFrom_of_ready now now' (fuel + 1) hready
      · obtain ⟨hpath, hmissing⟩ := not_or.mp hready
        have hmissing := Classical.not_not.mp hmissing
        have hmissing' := (h.makeDirectory_notFound_iff now now' path).mpr hmissing
        cases habove : Path.parent? path with
        | none =>
            rw [makeDirectoriesFrom_stuck hpath hmissing (.inr habove),
              makeDirectoriesFrom_stuck hpath hmissing' (.inr habove)]
            exact ⟨rfl, h⟩
        | some above =>
            rw [makeDirectoriesFrom_above hpath hmissing habove, makeDirectoriesFrom_above hpath hmissing' habove]
            have hmade := ih h above
            generalize Disk.makeDirectoriesFrom now fuel d above = made at hmade ⊢
            generalize Disk.makeDirectoriesFrom now' fuel d' above = made' at hmade ⊢
            obtain ⟨e, r⟩ := made
            obtain ⟨e', r'⟩ := made'
            obtain ⟨hr, hsame⟩ := hmade
            obtain rfl : r' = r := hr
            cases r' with
            | some error => exact ⟨rfl, hsame⟩
            | none => exact hsame.settled now now' path

end SameKinds

/-- The directory of a path cannot be made whatever stands in the tree, or nothing is made where the path of a name
in it finds its directory. -/
theorem makeDirectories_parent (hname : Path.Simple name) (directory : String) :
    (∃ e, ∀ (d : Disk) now, d.makeDirectories now ((Path.parent? (Path.join directory name)).getD "") = (d, some e)) ∨
      ∀ (d : Disk) now q, d.folder directory = .ok q →
        d.makeDirectories now ((Path.parent? (Path.join directory name)).getD "") = (d, none) := by
  cases habove : Path.parent? (Path.join directory name) with
  | none => exact .inr fun d now q _ => makeDirectoriesFrom_empty now 0 d
  | some above =>
      obtain ⟨hparts, habsolute⟩ := Path.parts_of_parent? habove
      rw [hname.parts_join, List.dropLast_concat] at hparts
      rw [Path.isAbsolute_join directory hname.plain.not_isAbsolute] at habsolute
      rcases resolve_cases above with rfl | ⟨e, he, hnowhere⟩ | husable
      · exact .inr fun d now q _ => makeDirectoriesFrom_empty now 0 d
      · left
        have hne : above ≠ "" := by
          rintro rfl
          exact he (Except.error.inj (hnowhere {} true)).symm
        refine ⟨e, fun d now => ?_⟩
        have hmade : d.makeDirectory now above = .error e := by
          rw [makeDirectory, hnowhere]
        rw [Option.getD_some, makeDirectories, makeDirectoriesFrom_settled hne, hmade, settled, isDirectory, entry?,
          hnowhere]
        · rfl
        · rw [hmade]
          intro h
          exact he (Except.error.inj h)
      · right
        intro d now q hq
        have hlength := Path.length_parts_le above
        have hshort := husable.2.2
        have hfuel : (Path.parts directory).length < 41 * (maxPath + 1) := by
          rw [hparts] at hlength
          unfold maxPath at hshort ⊢
          omega
        have hresolve : ∀ f, d.resolve f above = .ok q := by
          intro f
          rw [resolve_eq_walk husable, hparts, habsolute]
          exact walk_of_descend hq hfuel
        obtain ⟨m, hm⟩ := hasDirectory_of_descend hq
        have hmade : d.makeDirectory now above = .error .exists_ := by
          rw [makeDirectory, hresolve]
          dsimp only
          rw [hm]
        have hdir : d.isDirectory above = true := by
          rw [isDirectory, entry?_eq_ok.mpr ⟨hresolve true, hm⟩]
        rw [Option.getD_some, makeDirectories, makeDirectoriesFrom_settled husable.1, hmade, settled, hdir]
        · rfl
        · rw [hmade]
          nofun

end Disk

end Files

end SignOn
