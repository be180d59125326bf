import SignOn.Idp.Families

/-! # Addresses with a query or a fragment

A question mark or a number sign ends the path of an address.

* `Untailed` texts hold neither of the two characters, `Tail` texts start with one of them (or are empty).  Cuts in
  front of a tail, and cuts that are found before it, leave it where it is (`cutAt_append`).
* `Url.splitsTails_parse?` reads an address with a tail: all but query and fragment are those of the address alone.
* `IdpKind.detect_append`: neither the family of an identity provider nor its handler depends on the tail. -/

namespace SignOn

namespace Url

/-- A text without question marks and number signs. -/
def Untailed (cs : List Char) : Prop :=
  ∀ c ∈ cs, c ≠ '?' ∧ c ≠ '#'

/-- A query, a fragment, or both, with the character in front; nothing is a tail as well. -/
def Tail (q : List Char) : Prop :=
  ∀ c ∈ q.head?, c = '?' ∨ c = '#'

theorem Untailed.of_sublist {cs ds : List Char} (h : Untailed cs) (hds : ds.Sublist cs) : Untailed ds :=
  fun c hc => h c (hds.subset hc)

theorem tail_nil : Tail [] :=
  fun _ hc => nomatch hc

theorem Tail.head_eq {q : List Char} {c : Char} (h : Tail (c :: q)) : c = '?' ∨ c = '#' :=
  h c rfl

theorem Tail.forall_head {q : List Char} (h : Tail q) {P : Char → Prop} (hquery : P '?') (hfragment : P '#') :
    ∀ c ∈ q.head?, P c := by
  intro c hc
  rcases h c hc with rfl | rfl
  · exact hquery
  · exact hfragment

/-! ### Cuts in front of a tail -/

section

variable {p : Char → Bool} {cs q : List Char}

theorem dropWhile_append_of_head (h : ∀ c ∈ q.head?, p c = false) :
    (cs ++ q).dropWhile p = cs.dropWhile p ++ q := by
  rw [List.dropWhile_append]
  split
  · next hnone =>
      rw [List.isEmpty_iff.mp hnone, List.nil_append]
      cases q with
      | nil => rfl
      | cons c q => rw [List.dropWhile_cons, h c rfl]; rfl
  · rfl

theorem cutAt_cons (p : Char → Bool) (c : Char) (cs : List Char) :
    cutAt p (c :: cs) = if p c then ([], c :: cs) else (c :: (cutAt p cs).1, (cutAt p cs).2) := by
  by_cases hc : p c = true
  · simp [cutAt, hc]
  · simp [cutAt, hc]

theorem sublist_cutAt (p : Char → Bool) (cs : List Char) : (cutAt p cs).2.Sublist cs :=
  List.dropWhile_sublist _

/-- A tail stays behind a cut that is found before it, or that it starts with. -/
theorem cutAt_append (h : (cutAt p cs).2 ≠ [] ∨ ∀ c ∈ q.head?, p c = true) :
    cutAt p (cs ++ q) = ((cutAt p cs).1, (cutAt p cs).2 ++ q) := by
  induction cs with
  | nil =>
      cases q with
      | nil => rfl
      | cons c q =>
          have hc : p c = true := h.resolve_left (fun hne => hne rfl) c rfl
          rw [List.nil_append, cutAt_cons, if_pos hc]
          rfl
  | cons c cs ih =>
      rw [cutAt_cons] at h ⊢
      rw [List.cons_append, cutAt_cons]
      by_cases hc : p c = true
      · rw [if_pos hc, if_pos hc]
        rfl
      · rw [if_neg hc] at h ⊢
        rw [if_neg hc, ih h]

end

/-! ### Parts of an address with a tail -/

section

variable (scheme : String) {cs q : List Char}

theorem fst_tails_append (hcs : Untailed cs) (hq : Tail q) : (tails scheme (cs ++ q)).1 = cs := by
  have hmark : ∀ c ∈ cs, (!decide (c = '?')) = true := fun c hc => by simp [(hcs c hc).1]
  have hnum : ∀ c ∈ cs, (!decide (c = '#')) = true := fun c hc => by simp [(hcs c hc).2]
  show ((cs ++ q).takeWhile fun c => !decide (c = '#')).takeWhile (fun c => !decide (c = '?')) = cs
  rw [List.takeWhile_append_of_pos hnum, List.takeWhile_append_of_pos hmark]
  cases q with
  | nil => simp
  | cons c q => rcases hq.head_eq with rfl | rfl <;> simp

theorem exists_tails_append (hcs : Untailed cs) (hq : Tail q) :
    ∃ query fragment, tails scheme (cs ++ q) = (cs, query, fragment) :=
  ⟨_, _, Prod.ext (fst_tails_append scheme hcs hq) rfl⟩

theorem fst_tails (hcs : Untailed cs) : (tails scheme cs).1 = cs := by
  have hnone := fst_tails_append scheme hcs (q := []) tail_nil
  rwa [List.append_nil] at hnone

/-- Addresses that differ in query and fragment at most. -/
def SameSite (u v : Url) : Prop :=
  ∃ query fragment, v = { u with query, fragment }

variable {scheme}

theorem scheme?_append {rest : List Char} (h : scheme? cs = some (scheme, rest)) :
    rest.Sublist cs ∧ scheme? (cs ++ q) = some (scheme, rest ++ q) := by
  unfold scheme? at h
  split at h
  · next c name sep behind hcut =>
      split at h
      · next hname =>
          obtain ⟨rfl, rfl⟩ := Prod.mk.inj (Option.some.inj h)
          have hfound : (cutAt (· = ':') cs).2 ≠ [] := by
            rw [hcut]
            exact List.cons_ne_nil sep behind
          have hbehind := sublist_cutAt (· = ':') cs
          rw [hcut] at hbehind
          refine ⟨(List.sublist_cons_self sep behind).trans hbehind, ?_⟩
          rw [scheme?, cutAt_append (.inl hfound), hcut]
          exact if_pos hname
      · cases h
  · cases h

theorem afterSlashes?_append (hcs : Untailed cs) (hq : Tail q) {u : Url} (h : afterSlashes? scheme cs = some u) :
    ∃ v, afterSlashes? scheme (cs ++ q) = some v ∧ SameSite u v := by
  have hcut := @cutAt_append (fun c => isSlash (isSpecial scheme) c || c = '?' || c = '#') cs q
    (.inr (hq.forall_head (by simp) (by simp)))
  have hrest := hcs.of_sublist (sublist_cutAt (fun c => isSlash (isSpecial scheme) c || c = '?' || c = '#') cs)
  obtain ⟨query, fragment, htails⟩ := exists_tails_append scheme hrest hq
  have hpath := fst_tails scheme hrest
  simp only [afterSlashes?, hcut, htails, Option.bind_eq_bind] at h ⊢
  obtain ⟨site, hsite, hu⟩ := Option.bind_eq_some_iff.mp h
  obtain rfl := Option.some.inj hu
  refine ⟨_, by rw [hsite]; rfl, query, fragment, ?_⟩
  simp only [hpath]

theorem file?_append (hcs : Untailed cs) (hq : Tail q) {u : Url} (h : file? cs = some u) :
    ∃ v, file? (cs ++ q) = some v ∧ SameSite u v := by
  obtain ⟨query, fragment, htails⟩ := exists_tails_append "file" hcs hq
  have hpath := fst_tails "file" hcs
  generalize htails₀ : tails "file" cs = front at h hpath
  unfold file? at h ⊢
  rw [htails]
  rw [htails₀] at h
  obtain ⟨path, query₀, fragment₀⟩ := front
  obtain rfl : path = cs := hpath
  rcases path with - | ⟨first, - | ⟨second, rest⟩⟩
  · obtain rfl := Option.some.inj h
    exact ⟨_, rfl, query, fragment, rfl⟩
  · obtain rfl := Option.some.inj h
    exact ⟨_, rfl, query, fragment, rfl⟩
  · dsimp only at h ⊢
    by_cases hslash : isSlash true first = true ∧ isSlash true second = true
    · rw [if_pos hslash] at h ⊢
      by_cases hdrive : isDriveLetter (cutAt (isSlash true) rest).1 = true
      · rw [if_pos hdrive] at h ⊢
        obtain rfl := Option.some.inj h
        exact ⟨_, rfl, query, fragment, rfl⟩
      rw [if_neg hdrive] at h ⊢
      by_cases hnone : (cutAt (isSlash true) rest).1 = []
      · rw [if_pos hnone] at h ⊢
        obtain rfl := Option.some.inj h
        exact ⟨_, rfl, query, fragment, rfl⟩
      · rw [if_neg hnone] at h ⊢
        obtain ⟨host, hhost, hu⟩ := Option.bind_eq_some_iff.mp h
        obtain rfl := Option.some.inj hu
        exact ⟨_, by rw [hhost]; rfl, query, fragment, rfl⟩
    · rw [if_neg hslash] at h ⊢
      obtain rfl := Option.some.inj h
      exact ⟨_, rfl, query, fragment, rfl⟩

end

/-! ### Reading an address with a tail -/

/-- A text without the characters of a class at both ends. -/
def strip (p : Char → Bool) (cs : List Char) : List Char :=
  ((cs.dropWhile p).reverse.dropWhile p).reverse

/-- If a text ends in a character that stays, and the one behind it stays, too, only what follows is cut. -/
theorem strip_append_cons {p : Char → Bool} {cs rest : List Char} {c : Char} (hcs : ∀ x ∈ cs.getLast?, p x = false)
    (hc : p c = false) : strip p (cs ++ c :: rest) = strip p cs ++ c :: (rest.reverse.dropWhile p).reverse := by
  obtain ⟨front, hfront⟩ := List.dropWhile_suffix (l := cs) p
  have hlast : ∀ x ∈ (cs.dropWhile p).reverse.head?, p x = false := by
    intro x hx
    rw [List.head?_reverse] at hx
    refine hcs x ?_
    rw [← hfront, List.getLast?_append, hx]
    rfl
  have hend := @dropWhile_append_of_head p [] _ hlast
  rw [List.nil_append] at hend
  have hahead := @dropWhile_append_of_head p cs (c :: rest) fun x hx => Option.some.inj hx ▸ hc
  have hbehind := @dropWhile_append_of_head p rest.reverse (c :: (cs.dropWhile p).reverse)
    fun x hx => Option.some.inj hx ▸ hc
  have hsplit : (cs.dropWhile p ++ c :: rest).reverse = rest.reverse ++ c :: (cs.dropWhile p).reverse := by simp
  rw [strip, strip, hahead, hsplit, hbehind, hend]
  simp

theorem significant_append {u q : String} (hu : ∀ c ∈ u.toList.getLast?, 0x20 < c.toNat) (hq : Tail q.toList) :
    ∃ r, Tail r ∧ significant (u ++ q) = significant u ++ r := by
  have hsignificant : ∀ s : String, significant s =
      (strip (·.toNat ≤ 0x20) s.toList).filter fun c => c ≠ '\t' ∧ c ≠ '\n' ∧ c ≠ '\r' := fun _ => rfl
  rw [hsignificant, hsignificant, String.toList_append]
  cases hchars : q.toList with
  | nil => exact ⟨[], tail_nil, by simp⟩
  | cons c rest =>
      rw [hchars] at hq
      have hlast : ∀ x ∈ u.toList.getLast?, decide (x.toNat ≤ 0x20) = false :=
        fun x hx => decide_eq_false (Nat.not_le.mpr (hu x hx))
      have hstays : decide (c.toNat ≤ 0x20) = false := by
        rcases hq.head_eq with rfl | rfl <;> rfl
      have hkeep : decide (c ≠ '\t' ∧ c ≠ '\n' ∧ c ≠ '\r') = true := by
        rcases hq.head_eq with rfl | rfl <;> rfl
      rw [strip_append_cons hlast hstays, List.filter_append, List.filter_cons, if_pos hkeep]
      refine ⟨_, ?_, rfl⟩
      exact fun x hx => hq x hx

theorem untailed_significant {u : String} (hu : Untailed u.toList) : Untailed (significant u) := by
  refine hu.of_sublist (List.filter_sublist.trans ?_)
  exact (List.dropWhile_sublist _).reverse.trans (by simpa using List.dropWhile_sublist _)

theorem Tail.exists_cons {r rest xs : List Char} {c : Char} (hr : Tail r) (hc : c ≠ '?' ∧ c ≠ '#')
    (h : rest ++ r = c :: xs) : ∃ ys, rest = c :: ys ∧ xs = ys ++ r := by
  cases rest with
  | nil =>
      rw [List.nil_append] at h
      subst h
      rcases hr.head_eq with rfl | rfl
      · exact absurd rfl hc.1
      · exact absurd rfl hc.2
  | cons d ys =>
      obtain ⟨rfl, hxs⟩ := List.cons.inj h
      exact ⟨ys, rfl, hxs.symm⟩

/-- A way to read addresses that splits off tails: a text without question marks and number signs that does not end in
a blank or a control character, and that is an address, is one with a tail behind it, too, and the same one up to query
and fragment. -/
def SplitsTails (read : String → Option Url) : Prop :=
  ∀ (u q : String) (url : Url), Untailed u.toList → (∀ c ∈ u.toList.getLast?, 0x20 < c.toNat) → Tail q.toList →
    read u = some url → ∃ v, read (u ++ q) = some v ∧ SameSite url v

theorem splitsTails_parse? : SplitsTails parse? := by
  intro u q url hu hend hq h
  obtain ⟨r, hr, hsignificant⟩ := significant_append hend hq
  unfold parse? at h ⊢
  rw [hsignificant]
  obtain ⟨⟨scheme, rest⟩, hscheme, hread⟩ := Option.bind_eq_some_iff.mp h
  obtain ⟨hrest, hscheme'⟩ := scheme?_append (q := r) hscheme
  have hplain := (untailed_significant hu).of_sublist hrest
  rw [hscheme']
  simp only [Option.bind_eq_bind, Option.bind_some] at hread ⊢
  -- One case for each branch of `parse?`.  No tail starts with a slash, so with it the branch is the same one.
  by_cases hfile : scheme = "file"
  · rw [if_pos hfile] at hread ⊢
    exact file?_append hplain hr hread
  rw [if_neg hfile] at hread ⊢
  by_cases hspecial : isSpecial scheme = true
  · rw [if_pos hspecial] at hread ⊢
    rw [dropWhile_append_of_head (hr.forall_head rfl rfl)]
    exact afterSlashes?_append (hplain.of_sublist (List.dropWhile_sublist _)) hr hread
  rw [if_neg hspecial] at hread ⊢
  have hpath := fst_tails scheme hplain
  obtain ⟨query, fragment, htails⟩ := exists_tails_append scheme hplain hr
  have hslash : '/' ≠ '?' ∧ '/' ≠ '#' := by decide
  split at hread
  · next rest =>
      have hbehind : rest.Sublist ('/' :: '/' :: rest) :=
        (List.sublist_cons_self _ _).trans (List.sublist_cons_self _ _)
      exact afterSlashes?_append (hplain.of_sublist hbehind) hr hread
  · next rest hone =>
      split
      · next heq =>
          obtain ⟨-, heq⟩ := List.cons.inj heq
          obtain ⟨ys, rfl, -⟩ := hr.exists_cons hslash heq
          exact absurd rfl (hone ys)
      · obtain rfl := Option.some.inj hread
        rw [htails]
        exact ⟨_, rfl, query, fragment, by simp only [hpath]⟩
      · next hnone => exact absurd rfl (hnone _)
  · next hone hnone =>
      split
      · next heq =>
          obtain ⟨ys, rfl, -⟩ := hr.exists_cons hslash heq
          exact absurd rfl (hnone ys)
      · next heq =>
          obtain ⟨ys, rfl, -⟩ := hr.exists_cons hslash heq
          exact absurd rfl (hnone ys)
      · obtain rfl := Option.some.inj hread
        rw [htails]
        exact ⟨_, rfl, query, fragment, by simp only [hpath]⟩

end Url

/-! ### Families of identity providers -/

namespace IdpKind

open Url (Untailed Tail SameSite)

/-- The family for an address that has been read somehow. -/
def ofRead (address : String) : Option Url → IdpKind
  | some u => ofHostAndPath (Text.asciiLower (u.host.getD "")) (Text.asciiLower u.path)
  | none => ofHostAndPath (Text.asciiLower address) (Text.asciiLower address)

theorem detect_eq_ofRead (address : String) : detect address = ofRead address (Url.parse? address) := by
  rw [detect]
  cases Url.parse? address <;> rfl

theorem ofRead_of_sameSite {u v : Url} (h : SameSite u v) (a b : String) : ofRead b (some v) = ofRead a (some u) := by
  obtain ⟨query, fragment, rfl⟩ := h
  rfl

/-- **Query and fragment do not count.**  Take a text without question marks and number signs that does not end in a
blank or a control character, and another one behind it that starts with one of the two characters.  If the first one
is an address, both together are an address of the same host and the same path, the identity provider is taken for one
of the same family, and every registry has the same handler for it.  The family is the same for any other way to read
addresses that splits off query and fragment. -/
theorem detect_append {u q : String} (hplain : ∀ c ∈ u.toList, c ≠ '?' ∧ c ≠ '#')
    (hend : ∀ c ∈ u.toList.getLast?, 0x20 < c.toNat) (htail : ∀ c ∈ q.toList.head?, c = '?' ∨ c = '#') :
    (∀ url, Url.parse? u = some url →
        (∃ query fragment, Url.parse? (u ++ q) = some { url with query, fragment }) ∧
          detect (u ++ q) = detect u ∧ ∀ r : Idp.Registry, r.forUrl (u ++ q) = r.forUrl u) ∧
      ∀ read, Url.SplitsTails read → ∀ url, read u = some url →
        ofRead (u ++ q) (read (u ++ q)) = ofRead u (read u) := by
  have hread : ∀ read, Url.SplitsTails read → ∀ url, read u = some url →
      ofRead (u ++ q) (read (u ++ q)) = ofRead u (read u) := by
    intro read hsplits url hurl
    obtain ⟨v, hv, hsame⟩ := hsplits u q url hplain hend htail hurl
    rw [hurl, hv]
    exact ofRead_of_sameSite hsame u (u ++ q)
  refine ⟨fun url hurl => ?_, hread⟩
  have hfamily : detect (u ++ q) = detect u := by
    rw [detect_eq_ofRead, detect_eq_ofRead, hread Url.parse? Url.splitsTails_parse? url hurl]
  obtain ⟨v, hv, query, fragment, rfl⟩ := Url.splitsTails_parse? u q url hplain hend htail hurl
  refine ⟨⟨query, fragment, hv⟩, hfamily, fun r => ?_⟩
  rw [Idp.Registry.forUrl, hfamily, Idp.Registry.forUrl]

/-- The realm of a Keycloak stays one, whatever the state that is sent along speaks of. -/
theorem detect_append_realm :
    let u := "https://sso.example.com:8443/a/../auth/realms/main"
    let q := "?state=https://dev.okta.com/@login.live.com#/oktapreview.com"
    ((∀ c ∈ u.toList, c ≠ '?' ∧ c ≠ '#') ∧ (∀ c ∈ u.toList.getLast?, 0x20 < c.toNat) ∧
        ∀ c ∈ q.toList.head?, c = '?' ∨ c = '#') ∧
      detect (u ++ q) = .keycloak ∧ (({} : Idp.Registry).forUrl (u ++ q)).kind = .keycloak := by
  intro u q
  have hnone : u.toList.all (fun c => c ≠ '?' ∧ c ≠ '#') = true := by decide +kernel
  have hlast : u.toList.getLast? = some 'n' := by decide +kernel
  have hfirst : q.toList.head? = some '?' := by decide +kernel
  have hplain : ∀ c ∈ u.toList, c ≠ '?' ∧ c ≠ '#' :=
    fun c hc => of_decide_eq_true (List.all_eq_true.mp hnone c hc)
  have hend : ∀ c ∈ u.toList.getLast?, 0x20 < c.toNat := by
    rw [hlast]
    rintro _ ⟨⟩
    decide
  have htail : ∀ c ∈ q.toList.head?, c = '?' ∨ c = '#' := by
    rw [hfirst]
    rintro _ ⟨⟩
    exact .inl rfl
  have hparse : Url.parse? u = some
      { scheme := "https", hasAuthority := true, host := some "sso.example.com", port := some 8443,
        path := "/auth/realms/main" } := by decide +kernel
  have hkeycloak : detect u = .keycloak := by decide +kernel
  obtain ⟨-, hfamily, hhandler⟩ := (detect_append hplain hend htail).1 _ hparse
  refine ⟨⟨hplain, hend, htail⟩, hfamily.trans hkeycloak, ?_⟩
  rw [hhandler, Idp.Registry.forUrl, hkeycloak]
  rfl

end IdpKind

end SignOn
