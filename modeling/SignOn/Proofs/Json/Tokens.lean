import SignOn.Proofs.Json.Grammar

/-! # Strings and numbers against the grammar

The reader of strings and the reader of numbers, part by part and in both directions: they read what the grammar
allows, whatever follows (`readBody_eq_iff`, `readNumber_of`), and what they have read the grammar allows
(`readBody_eq_iff`, `readNumber_eq`).  Where a string or a number does not end as it should, what has been read of it
cannot be passed over (`readBody_eq_none`, `readNumber_eq_none`). -/

namespace SignOn.Json

open Text (Symbol)

/-! ### Strings -/

def StringBody.take (b : StringBody) : StringPart → StringBody
  | .char c => b.push c
  | .byte => b.pushByte
  | .unit n => b.pushUnit n

theorem readBody_part {p : StringPart} {ss : List Symbol} (h : p.Written ss) (b : StringBody) (rest : List Symbol) :
    readBody b (ss ++ rest) = readBody (b.take p) rest := by
  cases h with
  | plain hc hq hb =>
      rw [List.singleton_append, readBody]
      · rw [if_neg (Nat.not_lt.mpr hc)]
        rfl
      all_goals intros; simp_all
  | byte => rw [List.singleton_append, readBody]; rfl
  | @short e c he =>
      have hu : e ≠ 'u' := by
        rintro rfl
        cases he
      simp only [List.cons_append, List.nil_append]
      rw [readBody]
      · rw [he]
        rfl
      all_goals intros; simp_all
  | unit hn =>
      simp only [List.cons_append, List.nil_append]
      rw [readBody, hn]
      rfl

theorem readBody_of_bodyOf {ps : List StringPart} {body : List Symbol} (h : BodyOf ps body) (b : StringBody)
    (rest : List Symbol) :
    readBody b (body ++ some '"' :: rest) = ((ps.foldl StringBody.take b).close, some rest) := by
  induction h generalizing b with
  | nil => rw [List.nil_append, readBody]; rfl
  | cons hp _ ih => rw [List.append_assoc, readBody_part hp, ih, List.foldl_cons]

theorem bodyOf_of_readBody {b : StringBody} {ss rest : List Symbol} {r : Except Unusable String}
    (h : readBody b ss = (r, some rest)) :
    ∃ ps body, BodyOf ps body ∧ ss = body ++ some '"' :: rest ∧ r = (ps.foldl StringBody.take b).close := by
  fun_induction readBody b ss with
  | case1 | case3 | case5 | case6 | case8 | case9 | case10 => cases h
  | case2 b ss =>
      obtain ⟨rfl, hrest⟩ := Prod.mk.inj h
      obtain rfl := Option.some.inj hrest
      exact ⟨[], [], .nil, rfl, rfl⟩
  | case4 b x y z w ss n hn ih =>
      obtain ⟨ps, body, hbody, rfl, rfl⟩ := ih h
      exact ⟨.unit n :: ps, _, .cons (.unit hn) hbody, by simp, rfl⟩
  | case7 b e ss _ _ c hc ih =>
      obtain ⟨ps, body, hbody, rfl, rfl⟩ := ih h
      exact ⟨.char c :: ps, _, .cons (.short hc) hbody, by simp, rfl⟩
  | case11 b c ss hquote hend _ _ hescape hbyte hplain ih =>
      have hslash : c ≠ '\\' := by
        rintro rfl
        match ss with
        | [] => exact hend rfl rfl
        | some e :: ss => exact hescape e ss rfl rfl
        | none :: ss => exact hbyte ss rfl rfl
      obtain ⟨ps, body, hbody, rfl, rfl⟩ := ih h
      exact ⟨.char c :: ps, _, .cons (.plain (Nat.not_lt.mp hplain) hquote hslash) hbody, by simp, rfl⟩
  | case12 b ss ih =>
      obtain ⟨ps, body, hbody, rfl, rfl⟩ := ih h
      exact ⟨.byte :: ps, _, .cons .byte hbody, by simp, rfl⟩

namespace StringBody

/-- A body that cannot be used any more. -/
def Spoiled (b : StringBody) : Prop :=
  b.fault = some .malformed ∨ b.fault = none ∧ b.illFormed = true

theorem spoiled_refuse {b : StringBody} (h : b.fault = none ∨ b.fault = some .malformed) : b.refuse.Spoiled := by
  rcases h with h | h <;> simp [Spoiled, refuse, h]

theorem Spoiled.push {b : StringBody} (h : b.Spoiled) (p : StringPart) : (b.take p).Spoiled := by
  have hrefuse : b.refuse.Spoiled := spoiled_refuse (h.symm.imp And.left id)
  cases p with
  | char c =>
      rw [take, StringBody.push]
      split
      · exact hrefuse
      · exact h
  | byte =>
      rw [take, pushByte]
      split
      · exact hrefuse
      · exact h.imp id fun h => ⟨h.1, rfl⟩
  | unit n =>
      rw [take, pushUnit]
      repeat' split
      all_goals first | exact hrefuse | exact h

theorem Spoiled.close_foldl {b : StringBody} (h : b.Spoiled) (ps : List StringPart) :
    (ps.foldl take b).close = .error ⟨.malformed, none⟩ := by
  induction ps generalizing b with
  | nil => rcases h with h | ⟨h, hbyte⟩ <;> simp [close, *]
  | cons p ps ih => exact ih (h.push p)

/-- A body that waits for the second half of a surrogate pair. -/
def waiting (chars : List Char) (lead : Nat) : StringBody := { chars, lead := some lead }

section

variable {chars : List Char} {n m : Nat}

theorem pushUnit_of_isLead (h : isLead n = true) : (clean chars).pushUnit n = waiting chars n := by
  simp only [isLead, Bool.and_eq_true, decide_eq_true_eq] at h
  simp only [pushUnit, clean, if_pos h, waiting]

theorem pushUnit_of_isTrail (h : isTrail n = true) : (clean chars).pushUnit n = (clean chars).refuse := by
  simp only [isTrail, Bool.and_eq_true, decide_eq_true_eq] at h
  have hlead : ¬ (0xD800 ≤ n ∧ n ≤ 0xDBFF) := by omega
  simp only [pushUnit, clean, if_neg hlead, if_pos h]

theorem pushUnit_of_not (hlead : ¬ isLead n = true) (htrail : ¬ isTrail n = true) :
    (clean chars).pushUnit n = clean (Char.ofNat n :: chars) := by
  simp only [isLead, isTrail, Bool.and_eq_true, decide_eq_true_eq] at hlead htrail
  simp only [pushUnit, clean, if_neg hlead, if_neg htrail]

theorem pushUnit_waiting (h : isTrail m = true) :
    (waiting chars n).pushUnit m = clean (pairChar n m :: chars) := by
  simp only [isTrail, Bool.and_eq_true, decide_eq_true_eq] at h
  simp only [pushUnit, waiting, if_pos h, clean, pairChar]

theorem close_waiting {ps : List StringPart} (h : ∀ m rest, ps = .unit m :: rest → ¬ isTrail m = true) :
    (ps.foldl take (waiting chars n)).close = .error ⟨.malformed, none⟩ := by
  have hrefuse : (waiting chars n).refuse.Spoiled := spoiled_refuse (.inl rfl)
  match ps with
  | [] => rfl
  | .char c :: ps => exact hrefuse.close_foldl ps
  | .byte :: ps => exact hrefuse.close_foldl ps
  | .unit m :: ps =>
      have htrail := h m ps rfl
      simp only [isTrail, Bool.and_eq_true, decide_eq_true_eq] at htrail
      rw [List.foldl_cons, take, pushUnit, waiting]
      simp only [if_neg htrail]
      exact hrefuse.close_foldl ps

end

theorem close_foldl (ps : List StringPart) (chars : List Char) :
    (ps.foldl take (clean chars)).close =
      match textOf? ps with
      | some cs => .ok (String.ofList (chars.reverse ++ cs))
      | none => .error ⟨.malformed, none⟩ := by
  have hspoiled : (clean chars).refuse.Spoiled := spoiled_refuse (.inl rfl)
  -- Behind a part that is refused the state stays spoiled, so the cases without text do not need the rest.
  fun_induction textOf? ps generalizing chars with
  | case1 => simp [close, clean]
  | case2 c ps ih =>
      have ih := ih (c :: chars) (spoiled_refuse (.inl rfl))
      rw [List.foldl_cons, take, show (clean chars).push c = clean (c :: chars) from rfl, ih]
      cases textOf? ps <;> simp
  | case3 ps =>
      have hbyte : (clean chars).pushByte.Spoiled := .inr ⟨rfl, rfl⟩
      exact hbyte.close_foldl ps
  | case4 n hlead m ps htrail ih =>
      have ih := ih (pairChar n m :: chars) (spoiled_refuse (.inl rfl))
      rw [List.foldl_cons, take, pushUnit_of_isLead hlead, List.foldl_cons, take, pushUnit_waiting htrail, ih]
      cases textOf? ps <;> simp
  | case5 n hlead m ps htrail =>
      rw [List.foldl_cons, take, pushUnit_of_isLead hlead]
      refine close_waiting fun m' rest heq => ?_
      cases heq
      exact htrail
  | case6 n ps hlead hunit =>
      rw [List.foldl_cons, take, pushUnit_of_isLead hlead]
      exact close_waiting fun m rest heq => (hunit m rest heq).elim
  | case7 n ps hlead htrail =>
      rw [List.foldl_cons, take, pushUnit_of_isTrail htrail]
      exact hspoiled.close_foldl ps
  | case8 n ps hlead htrail ih =>
      have ih := ih (Char.ofNat n :: chars) (spoiled_refuse (.inl rfl))
      rw [List.foldl_cons, take, pushUnit_of_not hlead htrail, ih]
      cases textOf? ps <;> simp

end StringBody

theorem close_take (ps : List StringPart) : (ps.foldl StringBody.take {}).close = stringOf ps := by
  have h := StringBody.close_foldl ps []
  rw [List.reverse_nil] at h
  exact h

/-- A string is read as its parts say. -/
theorem readBody_eq_iff {ss rest : List Symbol} {r : Except Unusable String} :
    readBody {} ss = (r, some rest) ↔
      ∃ ps body, BodyOf ps body ∧ ss = body ++ some '"' :: rest ∧ r = stringOf ps := by
  constructor
  · intro h
    obtain ⟨ps, body, hbody, hss, hr⟩ := bodyOf_of_readBody h
    exact ⟨ps, body, hbody, hss, hr.trans (close_take ps)⟩
  · rintro ⟨ps, body, hbody, rfl, rfl⟩
    rw [readBody_of_bodyOf hbody, close_take]

/-- Where a string does not end, it cannot be passed over. -/
theorem readBody_eq_none {b : StringBody} {ss : List Symbol} {r : Except Unusable String}
    (h : readBody b ss = (r, none)) : ∃ used fault, r = .error ⟨used, some fault⟩ := by
  fun_induction readBody b ss with
  | case2 => cases h
  | case4 _ _ _ _ _ _ _ _ ih | case7 _ _ _ _ _ _ _ ih | case11 _ _ _ _ _ _ _ _ _ _ ih | case12 _ _ ih => exact ih h
  | case1 | case3 | case5 | case6 | case8 | case9 | case10 =>
      obtain ⟨rfl, -⟩ := Prod.mk.inj h
      exact ⟨_, _, rfl⟩

/-! ### Numbers -/

theorem digit?_eq_some {s : Symbol} {d : Nat} (h : digit? s = some d) :
    ∃ c, s = some c ∧ c.isDigit = true ∧ d = c.toNat - 48 := by
  cases s with
  | none => cases h
  | some c =>
      rw [digit?] at h
      split at h
      · next hc =>
          refine ⟨c, rfl, ?_, (Option.some.inj h).symm⟩
          simp only [Char.isDigit, Bool.and_eq_true, decide_eq_true_eq, ge_iff_le, UInt32.le_iff_toNat_le]
          exact hc
      · cases h

/-- The symbols do not start with a digit. -/
def NoDigit (ss : List Symbol) : Prop :=
  ∀ s ∈ ss.head?, digit? s = none

theorem noDigit_of_cons {c : Char} {ss : List Symbol} (h : c.isDigit = false) : NoDigit (some c :: ss) := by
  rintro s hs
  obtain rfl : some c = s := by simpa using hs
  cases hd : digit? (some c) with
  | none => rfl
  | some d =>
      obtain ⟨c', hc', hdigit, -⟩ := digit?_eq_some hd
      obtain rfl := Option.some.inj hc'
      cases h.symm.trans hdigit

theorem takeDigits_eq {ss rest : List Symbol} {ds : List Nat} (h : takeDigits ss = (ds, rest)) :
    ∃ cs : List Char, (∀ c ∈ cs, c.isDigit = true) ∧ ss = cs.map some ++ rest ∧ ds = digitValues cs ∧
      NoDigit rest := by
  induction ss generalizing ds with
  | nil =>
      obtain ⟨rfl, rfl⟩ := Prod.mk.inj h
      exact ⟨[], by simp, rfl, rfl, by simp [NoDigit]⟩
  | cons s ss ih =>
      rw [takeDigits] at h
      split at h
      · next d hd =>
          obtain ⟨rfl, rfl⟩ := Prod.mk.inj h
          obtain ⟨c, rfl, hc, rfl⟩ := digit?_eq_some hd
          obtain ⟨cs, hcs, hss, hds, hrest⟩ := ih rfl
          refine ⟨c :: cs, ?_, ?_, ?_, hrest⟩
          · simpa using ⟨hc, hcs⟩
          · rw [List.map_cons, List.cons_append, ← hss]
          · rw [hds]
            rfl
      · next hd =>
          obtain ⟨rfl, rfl⟩ := Prod.mk.inj h
          refine ⟨[], by simp, rfl, rfl, fun s' hs' => ?_⟩
          obtain rfl : s = s' := by simpa using hs'
          exact hd

theorem takeDigits_of_isDigits {cs : List Char} (h : IsDigits cs) {rest : List Symbol} (hrest : NoDigit rest) :
    takeDigits (cs.map some ++ rest) = (digitValues cs, rest) ∧ digitValues cs ≠ [] :=
  ⟨takeDigits_append h.2 hrest, fun hnil => h.1 (List.map_eq_nil_iff.mp hnil)⟩

theorem IsDigits.exists_cons {cs : List Char} (h : IsDigits cs) :
    ∃ c cs', cs = c :: cs' ∧ c.isDigit = true := by
  obtain ⟨c, cs', rfl⟩ := List.exists_cons_of_ne_nil h.1
  exact ⟨c, cs', rfl, h.2 c List.mem_cons_self⟩

/-- The digits of an exponent, and what follows them. -/
def readExponentDigits (negative : Bool) (significand : Nat) (start : Int) (down : Bool) (ss : List Symbol) :
    Draft × Option (List Symbol) :=
  match takeDigits ss with
  | ([], []) => (unfinished, none)
  | ([], _ :: _) => (.broken .malformed, none)
  | (ds, rest) =>
    match appendDigits 0x80000000 0 ds with
    | (e, 0) => (floatLeaf negative significand (clamp32 (if down then start - e else start + e)), some rest)
    | _ =>
      if significand = 0 ∨ down then (.number (.float (signed negative 0)), some rest)
      else (.unusable ⟨.malformed, none⟩, some rest)

section

variable {negative down : Bool} {significand n excess : Nat} {start : Int} {ss rest : List Symbol} {leaf : Draft}

theorem readExponentDigits_of {digits : List Char} (hdigits : IsDigits digits) (hrest : NoDigit rest) :
    readExponentDigits negative significand start down (digits.map some ++ rest) =
      (exponentLeaf negative significand start down digits, some rest) := by
  obtain ⟨htake, hne⟩ := takeDigits_of_isDigits hdigits hrest
  rw [readExponentDigits, htake, exponentLeaf]
  generalize digitValues digits = ds at hne ⊢
  cases ds with
  | nil => exact absurd rfl hne
  | cons d ds =>
      dsimp only
      obtain ⟨e, left⟩ := appendDigits 0x80000000 0 (d :: ds)
      cases left with
      | zero => rfl
      | succ left => by_cases h : significand = 0 ∨ down = true <;> simp only [h, if_true, if_false]

theorem readExponentDigits_eq
    (h : readExponentDigits negative significand start down ss = (leaf, some rest)) :
    ∃ digits, IsDigits digits ∧ NoDigit rest ∧ ss = digits.map some ++ rest ∧
      leaf = exponentLeaf negative significand start down digits := by
  cases htake : takeDigits ss with
  | mk ds rest' =>
    obtain ⟨digits, hdigits, rfl, rfl, hrest⟩ := takeDigits_eq htake
    have hne : digits ≠ [] := by
      rintro rfl
      rw [readExponentDigits, htake] at h
      cases rest' <;> cases h
    have hread : readExponentDigits negative significand start down (digits.map some ++ rest') = _ :=
      readExponentDigits_of ⟨hne, hdigits⟩ hrest
    obtain ⟨rfl, hsame⟩ := Prod.mk.inj (hread.symm.trans h)
    obtain rfl := Option.some.inj hsame
    exact ⟨digits, ⟨hne, hdigits⟩, hrest, rfl, rfl⟩

theorem readExponent_of {sign digits : List Char} (hsign : IsSign down sign) (hdigits : IsDigits digits)
    (hrest : NoDigit rest) :
    readExponent negative significand start ((sign ++ digits).map some ++ rest) =
      (exponentLeaf negative significand start down digits, some rest) := by
  cases down with
  | true =>
      cases hsign
      exact readExponentDigits_of hdigits hrest
  | false =>
      rcases hsign with rfl | rfl
      · obtain ⟨c, cs, rfl, hc⟩ := hdigits.exists_cons
        have hne : ∀ d : Char, d.isDigit = false → some c ≠ some d := by
          intro d hd heq
          rw [Option.some.inj heq, hd] at hc
          cases hc
        unfold readExponent
        split
        next hss =>
          split at hss
          · next heq => exact absurd (List.cons.inj heq).1 (hne '+' rfl)
          · next heq => exact absurd (List.cons.inj heq).1 (hne '-' rfl)
          · obtain ⟨rfl, rfl⟩ := Prod.mk.inj hss
            exact readExponentDigits_of hdigits hrest
      · exact readExponentDigits_of hdigits hrest

theorem readExponent_eq (h : readExponent negative significand start ss = (leaf, some rest)) :
    ∃ down sign digits, IsSign down sign ∧ IsDigits digits ∧ NoDigit rest ∧
      ss = (sign ++ digits).map some ++ rest ∧ leaf = exponentLeaf negative significand start down digits := by
  obtain ⟨down, sign, ss', hsign, rfl, hread⟩ : ∃ down sign ss', IsSign down sign ∧ ss = sign.map some ++ ss' ∧
      readExponentDigits negative significand start down ss' = (leaf, some rest) := by
    unfold readExponent at h
    split at h
    next hss =>
      split at hss <;> obtain ⟨rfl, rfl⟩ := Prod.mk.inj hss
      · exact ⟨false, ['+'], _, .inr rfl, rfl, h⟩
      · exact ⟨true, ['-'], _, rfl, rfl, h⟩
      · exact ⟨false, [], _, .inl rfl, rfl, h⟩
  obtain ⟨digits, hdigits, hrest, rfl, rfl⟩ := readExponentDigits_eq hread
  exact ⟨down, sign, digits, hsign, hdigits, hrest, by simp, rfl⟩

/-- What may follow the digits of a number: the letter of an exponent, or something else. -/
def readScale (negative : Bool) (significand : Nat) (start : Int) (ss : List Symbol) : Draft × Option (List Symbol) :=
  match ss with
  | some 'e' :: rest => readExponent negative significand start rest
  | some 'E' :: rest => readExponent negative significand start rest
  | _ => (floatLeaf negative significand start, some ss)

theorem readScale_of {exponent : Option (Bool × List Char)} {cs : List Char} (h : IsExponent exponent cs)
    (hrest : EndsNumber rest) :
    readScale negative significand start (cs.map some ++ rest) =
      (scaledLeaf negative significand start exponent, some rest) := by
  match exponent with
  | none =>
      obtain rfl : cs = [] := h
      rw [List.map_nil, List.nil_append]
      unfold readScale
      split
      · exact absurd rfl (hrest _ rfl).2.2.1
      · exact absurd rfl (hrest _ rfl).2.2.2
      · rfl
  | some (down, digits) =>
      obtain ⟨hdigits, mark, sign, hmark, hsign, rfl⟩ := h
      have hread : readExponent negative significand start ((sign ++ digits).map some ++ rest) = _ :=
        readExponent_of hsign hdigits fun s hs => (hrest s hs).1
      rcases hmark with rfl | rfl <;> exact hread

theorem readScale_eq (h : readScale negative significand start ss = (leaf, some rest)) :
    ∃ exponent cs, IsExponent exponent cs ∧ ss = cs.map some ++ rest ∧
      leaf = scaledLeaf negative significand start exponent := by
  have hexponent : ∀ mark ss', (mark = 'e' ∨ mark = 'E') → ss = some mark :: ss' →
      readExponent negative significand start ss' = (leaf, some rest) →
      ∃ exponent cs, IsExponent exponent cs ∧ ss = cs.map some ++ rest ∧
        leaf = scaledLeaf negative significand start exponent := by
    rintro mark ss' hmark rfl hread
    obtain ⟨down, sign, digits, hsign, hdigits, -, rfl, rfl⟩ := readExponent_eq hread
    exact ⟨some (down, digits), mark :: (sign ++ digits), ⟨hdigits, mark, sign, hmark, hsign, rfl⟩, rfl, rfl⟩
  unfold readScale at h
  split at h
  · exact hexponent 'e' _ (.inl rfl) rfl h
  · exact hexponent 'E' _ (.inr rfl) rfl h
  · obtain ⟨rfl, hsame⟩ := Prod.mk.inj h
    obtain rfl := Option.some.inj hsame
    exact ⟨none, [], rfl, rfl, rfl⟩

/-- What follows the point of a number. -/
def readPoint (negative : Bool) (n excess : Nat) (ss : List Symbol) : Draft × Option (List Symbol) :=
  match takeDigits ss with
  | ([], []) => (unfinished, none)
  | ([], _ :: _) => (.broken .malformed, none)
  | (ds, rest) =>
    let (significand, left) := appendDigits 0x10000000000000000 n ds
    readScale negative significand ((excess : Int) - ((ds.length - left : Nat) : Int)) rest

theorem noDigit_exponent {exponent : Option (Bool × List Char)} {cs : List Char} (h : IsExponent exponent cs)
    (hrest : NoDigit rest) : NoDigit (cs.map some ++ rest) := by
  match exponent with
  | none =>
      obtain rfl : cs = [] := h
      exact hrest
  | some (down, digits) =>
      obtain ⟨-, mark, sign, hmark, -, rfl⟩ := h
      refine noDigit_of_cons ?_
      rcases hmark with rfl | rfl <;> rfl

theorem readPoint_of {digits cs : List Char} {exponent : Option (Bool × List Char)} (hdigits : IsDigits digits)
    (h : IsExponent exponent cs) (hrest : EndsNumber rest) :
    readPoint negative n excess ((digits ++ cs).map some ++ rest) =
      (fractionLeaf negative n excess (some digits) exponent, some rest) := by
  obtain ⟨htake, hne⟩ := takeDigits_of_isDigits hdigits (noDigit_exponent h fun s hs => (hrest s hs).1)
  have hlength : (digitValues digits).length = digits.length := List.length_map _
  rw [List.map_append, List.append_assoc, readPoint, htake, fractionLeaf, ← hlength]
  generalize digitValues digits = ds at hne ⊢
  cases ds with
  | nil => exact absurd rfl hne
  | cons d ds => exact readScale_of h hrest

theorem readPoint_eq (h : readPoint negative n excess ss = (leaf, some rest)) :
    ∃ digits exponent cs, IsDigits digits ∧ IsExponent exponent cs ∧ ss = (digits ++ cs).map some ++ rest ∧
      leaf = fractionLeaf negative n excess (some digits) exponent := by
  cases htake : takeDigits ss with
  | mk ds rest' =>
    obtain ⟨digits, hdigits, rfl, hds, hrest⟩ := takeDigits_eq htake
    have hlength : ds.length = digits.length := hds ▸ List.length_map _
    rw [readPoint, htake] at h
    cases ds with
    | nil => cases rest' <;> cases h
    | cons d ds =>
        have hne : digits ≠ [] := by
          rintro rfl
          cases hds
        have h : readScale negative (appendDigits 0x10000000000000000 n (d :: ds)).1
            ((excess : Int) -
              (((d :: ds).length - (appendDigits 0x10000000000000000 n (d :: ds)).2 : Nat) : Int)) rest' =
            (leaf, some rest) := h
        obtain ⟨exponent, cs, hexponent, rfl, rfl⟩ := readScale_eq h
        refine ⟨digits, exponent, cs, ⟨hne, hdigits⟩, hexponent, by simp, ?_⟩
        rw [fractionLeaf, ← hds, hlength]

theorem readFraction_of {fraction : Option (List Char)} {exponent : Option (Bool × List Char)} {cs ds : List Char}
    (hfraction : IsFraction fraction cs) (hexponent : IsExponent exponent ds) (hrest : EndsNumber rest) :
    readFraction negative n excess ((cs ++ ds).map some ++ rest) =
      (fractionLeaf negative n excess fraction exponent, some rest) := by
  match fraction, exponent with
  | some digits, exponent =>
      obtain ⟨hdigits, rfl⟩ := hfraction
      exact readPoint_of hdigits hexponent hrest
  | none, some (down, digits) =>
      obtain rfl : cs = [] := hfraction
      obtain ⟨hdigits, mark, sign, hmark, hsign, rfl⟩ := hexponent
      have hread : readExponent negative n excess ((sign ++ digits).map some ++ rest) = _ :=
        readExponent_of hsign hdigits fun s hs => (hrest s hs).1
      rcases hmark with rfl | rfl <;> exact hread
  | none, none =>
      obtain rfl : cs = [] := hfraction
      obtain rfl : ds = [] := hexponent
      rw [List.append_nil, List.map_nil, List.nil_append]
      unfold readFraction
      split
      · exact absurd rfl (hrest _ rfl).2.1
      · exact absurd rfl (hrest _ rfl).2.2.1
      · exact absurd rfl (hrest _ rfl).2.2.2
      · rfl

theorem readFraction_eq (h : readFraction negative n excess ss = (leaf, some rest)) :
    ∃ fraction exponent cs ds, IsFraction fraction cs ∧ IsExponent exponent ds ∧
      ss = (cs ++ ds).map some ++ rest ∧ leaf = fractionLeaf negative n excess fraction exponent := by
  have hscale : ∀ mark ss', (mark = 'e' ∨ mark = 'E') → ss = some mark :: ss' →
      readExponent negative n excess ss' = (leaf, some rest) →
      ∃ fraction exponent cs ds, IsFraction fraction cs ∧ IsExponent exponent ds ∧
        ss = (cs ++ ds).map some ++ rest ∧ leaf = fractionLeaf negative n excess fraction exponent := by
    rintro mark ss' hmark rfl hread
    obtain ⟨down, sign, digits, hsign, hdigits, -, rfl, rfl⟩ := readExponent_eq hread
    exact ⟨none, some (down, digits), [], mark :: (sign ++ digits), rfl, ⟨hdigits, mark, sign, hmark, hsign, rfl⟩,
      rfl, rfl⟩
  unfold readFraction at h
  split at h
  · obtain ⟨digits, exponent, cs, hdigits, hexponent, rfl, rfl⟩ := readPoint_eq h
    exact ⟨some digits, exponent, '.' :: digits, cs, ⟨hdigits, rfl⟩, hexponent, by simp, rfl⟩
  · exact hscale 'e' _ (.inl rfl) rfl h
  · exact hscale 'E' _ (.inr rfl) rfl h
  · obtain ⟨rfl, hsame⟩ := Prod.mk.inj h
    obtain rfl := Option.some.inj hsame
    exact ⟨none, none, [], [], rfl, rfl, rfl, rfl⟩

theorem eq_zero_of_value {c : Char} (hc : c.isDigit = true) (h : c.toNat - 48 = 0) : c = '0' := by
  simp only [Char.isDigit, Bool.and_eq_true, decide_eq_true_eq, ge_iff_le, UInt32.le_iff_toNat_le] at hc
  have hlow : 48 ≤ c.toNat := hc.1
  have hzero : ('0' : Char).toNat = 48 := rfl
  exact Char.toNat_inj.mp (by omega)

/-- The digits in front of a number: a zero alone, or digits that start with another one. -/
theorem readNumber_whole {ds : List Nat} (htake : takeDigits ss = (ds, rest)) (hne : ds ≠ [])
    (hzero : ds.head? = some 0 → ds = [0]) :
    readNumber negative ss =
      readFraction negative (appendDigits 0x10000000000000000 0 ds).1 (appendDigits 0x10000000000000000 0 ds).2
        rest := by
  unfold readNumber
  split
  next heq => exact absurd (Prod.mk.inj (htake.symm.trans heq)).1 hne
  next heq => exact absurd (Prod.mk.inj (htake.symm.trans heq)).1 hne
  next heq =>
    obtain ⟨rfl, rfl⟩ := Prod.mk.inj (htake.symm.trans heq)
    have happend : appendDigits 0x10000000000000000 0 [0] = (0, 0) := by simp [appendDigits]
    rw [happend]
  next heq =>
    obtain ⟨rfl, rfl⟩ := Prod.mk.inj (htake.symm.trans heq)
    cases hzero rfl
  next heq =>
    obtain ⟨rfl, rfl⟩ := Prod.mk.inj (htake.symm.trans heq)
    rfl

/-- A number behind its sign. -/
theorem readNumber_of {cs : List Char} (h : IsUnsigned negative leaf cs) (hrest : EndsNumber rest) :
    readNumber negative (cs.map some ++ rest) = (leaf, some rest) := by
  obtain ⟨whole, fraction, exponent, ftext, etext, ⟨hwhole, hzero⟩, hfraction, hexponent, rfl, rfl⟩ := h
  have hnodigit : NoDigit ((ftext ++ etext).map some ++ rest) := by
    match fraction with
    | none =>
        obtain rfl : ftext = [] := hfraction
        exact noDigit_exponent hexponent fun s hs => (hrest s hs).1
    | some digits =>
        obtain ⟨-, rfl⟩ := hfraction
        exact noDigit_of_cons rfl
  obtain ⟨htake, hne⟩ := takeDigits_of_isDigits hwhole hnodigit
  have hvalue : (digitValues whole).head? = some 0 → digitValues whole = [0] := by
    intro hhead
    obtain ⟨c, cs, rfl, hc⟩ := hwhole.exists_cons
    obtain rfl := eq_zero_of_value hc (Option.some.inj hhead)
    obtain ⟨-, rfl⟩ := List.cons.inj (hzero rfl)
    rfl
  rw [List.map_append, List.append_assoc, readNumber_whole htake hne hvalue, readFraction_of hfraction hexponent hrest,
    numberLeaf]

theorem readNumber_eq (h : readNumber negative ss = (leaf, some rest)) :
    ∃ cs, IsUnsigned negative leaf cs ∧ ss = cs.map some ++ rest := by
  cases htake : takeDigits ss with
  | mk ds rest' =>
    obtain ⟨whole, hwhole, rfl, rfl, -⟩ := takeDigits_eq htake
    have hne : digitValues whole ≠ [] := by
      intro hnil
      rw [readNumber, htake, hnil] at h
      cases rest' <;> cases h
    have hzero : (digitValues whole).head? = some 0 → digitValues whole = [0] := by
      intro hhead
      cases hds : digitValues whole with
      | nil => exact absurd hds hne
      | cons d ds =>
        rw [hds] at hhead htake
        obtain rfl : d = 0 := Option.some.inj hhead
        cases ds with
        | nil => rfl
        | cons e ds =>
          rw [readNumber, htake] at h
          cases h
    rw [readNumber_whole htake hne hzero] at h
    obtain ⟨fraction, exponent, ftext, etext, hfraction, hexponent, rfl, rfl⟩ := readFraction_eq h
    have hwhole : IsWhole whole := by
      refine ⟨⟨fun hnil => hne (by rw [hnil]; rfl), hwhole⟩, fun hhead => ?_⟩
      obtain ⟨cs, rfl⟩ := List.head?_eq_some_iff.mp hhead
      have hcs : cs = [] := List.map_eq_nil_iff.mp (List.cons.inj (hzero rfl)).2
      rw [hcs]
    exact ⟨whole ++ (ftext ++ etext), ⟨whole, fraction, exponent, ftext, etext, hwhole, hfraction, hexponent, rfl, rfl⟩,
      by simp⟩

theorem skip_unfinished : unfinished.skip ≠ none := by
  rw [unfinished, Draft.skip]
  exact Option.some_ne_none _

theorem skip_broken (f : Fault) : (Draft.broken f).skip ≠ none := by
  rw [Draft.broken, Draft.skip]
  exact Option.some_ne_none _

theorem readExponent_eq_none (h : readExponent negative significand start ss = (leaf, none)) : leaf.skip ≠ none := by
  unfold readExponent at h
  dsimp only at h
  repeat' split at h
  all_goals obtain ⟨rfl, hrest⟩ := Prod.mk.inj h
  all_goals first | exact skip_unfinished | exact skip_broken _ | cases hrest

theorem readFraction_eq_none (h : readFraction negative n excess ss = (leaf, none)) : leaf.skip ≠ none := by
  unfold readFraction at h
  dsimp only at h
  repeat' split at h
  all_goals first | exact readExponent_eq_none h | obtain ⟨rfl, hrest⟩ := Prod.mk.inj h
  all_goals first | exact skip_unfinished | exact skip_broken _ | cases hrest

theorem readNumber_eq_none (h : readNumber negative ss = (leaf, none)) : leaf.skip ≠ none := by
  unfold readNumber at h
  dsimp only at h
  split at h
  case h_3 | h_5 => exact readFraction_eq_none h
  case h_1 => exact (Prod.mk.inj h).1 ▸ skip_unfinished
  case h_2 | h_4 => exact (Prod.mk.inj h).1 ▸ skip_broken _

end

end SignOn.Json
