import SignOn.Proofs.Logouts

/-! # Addresses to sign off at

The addresses that are tried to sign off from a form are the one of the settings, if there is one, and behind it the
usual ones on the origin of the login.

* `nodup_usualAddresses`: the usual addresses differ from each other, since their paths are in normal form already
  (`normalPath_of_mem`).
* `logoutCandidates_eq` says what dropping repeated entries comes to: the address of the settings is only compared with
  the first of the usual ones.
* `logoutCandidates_spec` is what follows: which addresses are tried, and exactly when one of them is tried twice. -/

namespace SignOn.Provider

/-! ### Entries that are repeated -/

theorem dropRepeated_of_nodup {l : List String} (h : l.Nodup) : dropRepeated l = l := by
  fun_induction dropRepeated l with
  | case1 | case2 => rfl
  | case3 a rest ih => exact absurd List.mem_cons_self (List.nodup_cons.mp h).1
  | case4 a b rest hne ih => rw [ih (List.nodup_cons.mp h).2]

/-- In front of entries that differ, an entry is dropped only if it is the first of them. -/
theorem dropRepeated_cons {a : String} {l : List String} (h : l.Nodup) :
    dropRepeated (a :: l) = if l.head? = some a then l else a :: l := by
  cases l with
  | nil => rfl
  | cons b rest =>
      rw [dropRepeated, dropRepeated_of_nodup h]
      by_cases hab : a = b
      · rw [if_pos hab, if_pos (by rw [hab, List.head?_cons])]
      · rw [if_neg hab, List.head?_cons, if_neg fun hb => hab (Option.some.inj hb).symm]

/-! ### The usual addresses -/

/-- The usual addresses to sign off at, on the origin of the login. -/
def usualAddresses (s : FormSettings) : List String :=
  match Url.parse? s.loginUrl with
  | some u => logoutPaths.filterMap fun p => (u.withPath? p).map Url.text
  | none => []

/-- The usual paths are in normal form, whatever the scheme is. -/
theorem normalPath_of_mem {p : String} (hp : p ∈ logoutPaths) (scheme : String) :
    Url.normalPath scheme p.toList = p := by
  have hforms : ∀ special isFile : Bool, ∀ p ∈ logoutPaths, p.toList = '/' :: p.toList.tail ∧
      Url.isSlash special '/' = true ∧
        Url.pathText (Url.resolve isFile [] (Url.rawSegments special p.toList.tail)) = p := by decide
  obtain ⟨hslash, hcut, hform⟩ := hforms (Url.isSpecial scheme) (scheme = "file") p hp
  rw [hslash, Url.normalPath]
  simp only [hcut, if_true]
  exact hform

theorem text_injective {u v v' : Url} {p p' : String} (hp : p ∈ logoutPaths) (hp' : p' ∈ logoutPaths)
    (hv : u.withPath? p = some v) (hv' : u.withPath? p' = some v') (h : v.text = v'.text) : p = p' := by
  unfold Url.withPath? at hv hv'
  split at hv
  · cases hv
  · next hcannot =>
      rw [if_neg hcannot] at hv'
      obtain rfl := Option.some.inj hv
      obtain rfl := Option.some.inj hv'
      simpa [Url.text, Url.userText, normalPath_of_mem hp, normalPath_of_mem hp'] using h

theorem nodup_usualAddresses (s : FormSettings) : (usualAddresses s).Nodup := by
  unfold usualAddresses
  cases Url.parse? s.loginUrl with
  | none => exact List.nodup_nil
  | some u =>
      have hpaths : logoutPaths.Nodup := by decide
      refine List.pairwise_filterMap.mpr (hpaths.imp_of_mem fun hp hp' hne a ha a' ha' heq => hne ?_)
      obtain ⟨v, hv, rfl⟩ := Option.map_eq_some_iff.mp ha
      obtain ⟨v', hv', rfl⟩ := Option.map_eq_some_iff.mp ha'
      exact text_injective hp hp' hv hv' heq

theorem mem_usualAddresses {s : FormSettings} {u v : Url} {p : String} (hu : Url.parse? s.loginUrl = some u)
    (hp : p ∈ logoutPaths) (hv : u.withPath? p = some v) : v.text ∈ usualAddresses s := by
  rw [usualAddresses, hu]
  exact List.mem_filterMap.mpr ⟨p, hp, by rw [hv]; rfl⟩

/-! ### The addresses that are tried -/

/-- The address of the settings comes before the usual ones, unless it is the first of them anyway. -/
theorem logoutCandidates_eq (s : FormSettings) :
    logoutCandidates s =
      match s.logoutUrl with
      | none => usualAddresses s
      | some a => if (usualAddresses s).head? = some a then usualAddresses s else a :: usualAddresses s := by
  have hdrop : logoutCandidates s = dropRepeated (s.logoutUrl.toList ++ usualAddresses s) := by
    unfold logoutCandidates usualAddresses
    cases Url.parse? s.loginUrl <;> rfl
  rw [hdrop]
  cases s.logoutUrl with
  | none => rw [Option.toList_none, List.nil_append, dropRepeated_of_nodup (nodup_usualAddresses s)]
  | some a => rw [Option.toList_some, List.singleton_append, dropRepeated_cons (nodup_usualAddresses s)]

theorem mem_logoutCandidates {s : FormSettings} {a : String} :
    a ∈ logoutCandidates s ↔ s.logoutUrl = some a ∨ a ∈ usualAddresses s := by
  rw [logoutCandidates_eq]
  cases s.logoutUrl with
  | none => simp
  | some a' =>
      dsimp only
      split
      · next hhead =>
          refine ⟨.inr, fun h => h.elim (fun heq => ?_) id⟩
          exact Option.some.inj heq ▸ List.mem_of_head? hhead
      · rw [List.mem_cons, Option.some.injEq, eq_comm]

theorem head?_logoutCandidates {s : FormSettings} {a : String} (h : s.logoutUrl = some a) :
    (logoutCandidates s).head? = some a := by
  rw [logoutCandidates_eq, h]
  dsimp only
  split
  · next hhead => exact hhead
  · rfl

/-- An address comes twice exactly if it is the one of the settings, and one of the usual ones behind the first. -/
theorem nodup_logoutCandidates_iff (s : FormSettings) :
    (logoutCandidates s).Nodup ↔ ∀ a, s.logoutUrl = some a → a ∉ (usualAddresses s).tail := by
  have hnodup := nodup_usualAddresses s
  rw [logoutCandidates_eq]
  cases s.logoutUrl with
  | none => simpa using hnodup
  | some a =>
      simp only [Option.some.injEq, forall_eq']
      cases husual : usualAddresses s with
      | nil => simp
      | cons first rest =>
          rw [husual] at hnodup
          obtain ⟨hfirst, -⟩ := List.nodup_cons.mp hnodup
          by_cases h : first = a
          · subst h
            rw [List.head?_cons, if_pos rfl, List.tail_cons]
            exact iff_of_true hnodup hfirst
          · rw [List.head?_cons, if_neg (by simpa using h), List.nodup_cons, List.tail_cons, List.mem_cons, not_or]
            exact ⟨fun hne => hne.1.2, fun hne => ⟨⟨Ne.symm h, hne⟩, hnodup⟩⟩

section

variable {σ : Type} {s : FormSettings} {role : String} {logger : Logger} {b : PageBehaviour σ} {w : World σ}

theorem visited_formLogout_of_unset (h : s.success.isSet = false) :
    visited ((formLogout s role logger).run.trace b w) = s.logoutUrl.toList := by
  have hstays : .clearCookies ∉ s.logoutUrl.toList.map (PageCall.goto · s.navigationTimeout) := by simp
  obtain ⟨-, hcalls⟩ : Attempt.EndsByClearing b role (formLogout s role logger) w ∧
      pageCalls ((formLogout s role logger).run.trace b w) = _ := (leads_formLogout b h w).endsByClearing hstays
  rw [visited, hcalls]
  cases s.logoutUrl <;> rfl

theorem nodup_visited_formLogout (h : (logoutCandidates s).Nodup) :
    (visited ((formLogout s role logger).run.trace b w)).Nodup := by
  cases hset : s.success.isSet with
  | false =>
      rw [visited_formLogout_of_unset hset]
      cases s.logoutUrl <;> simp
  | true =>
      rw [formLogout, if_pos hset]
      exact h.sublist (signsOff_visitCandidates b s (logoutCandidates s) w).inOrder.sublist

end

/-- **The addresses that are tried to sign off.**  The address of the settings comes first, if there is one, and all the
usual ones on the origin of the login are among them, whenever the address of the login is one and has an origin; there
are no others.  No address is tried twice, and so none is visited twice, unless the one of the settings is one of the
usual ones other than the first: then it comes twice. -/
theorem logoutCandidates_spec (s : FormSettings) :
    (∀ a, s.logoutUrl = some a → (logoutCandidates s).head? = some a) ∧
    (∀ u, Url.parse? s.loginUrl = some u →
      (∀ p ∈ logoutPaths, ∀ v, u.withPath? p = some v → v.text ∈ logoutCandidates s) ∧
      (u.isOpaque = false → ∀ p, ∃ v, u.withPath? p = some v ∧
        v.scheme = u.scheme ∧ v.host = u.host ∧ v.port = u.port)) ∧
    (∀ a, a ∈ logoutCandidates s ↔ s.logoutUrl = some a ∨ a ∈ usualAddresses s) ∧
    ((logoutCandidates s).Nodup ↔ ∀ a, s.logoutUrl = some a → a ∉ (usualAddresses s).tail) ∧
    ((logoutCandidates s).Nodup → ∀ {σ : Type} (b : PageBehaviour σ) (role : String) (retry : RetryPolicy)
      (logger : Logger) (w : World σ), (visited ((form s role retry logger).logout.run.trace b w)).Nodup) := by
  refine ⟨fun a => head?_logoutCandidates, fun u hu => ⟨fun p hp v hv => ?_, fun hcannot p => ?_⟩,
    fun a => mem_logoutCandidates, nodup_logoutCandidates_iff s, fun h {σ} b role retry logger w => ?_⟩
  · exact mem_logoutCandidates.mpr (.inr (mem_usualAddresses hu hp hv))
  · rw [Url.withPath?, if_neg (by simp [hcannot])]
    exact ⟨_, rfl, rfl, rfl, rfl⟩
  · exact nodup_visited_formLogout h

/-- Settings of a form with an address to sign off at. -/
def farewell (address : String) : FormSettings where
  loginUrl := "https://app.example.com/login"
  success := { selector := some "#home" }
  logoutUrl := some address

/-- An address that is none of the usual ones is tried in front of them, and none is visited twice. -/
theorem logoutCandidates_spec_farewell :
    (logoutCandidates (farewell "https://app.example.com/bye")).head? = some "https://app.example.com/bye" ∧
      "https://app.example.com/auth/logout" ∈ logoutCandidates (farewell "https://app.example.com/bye") ∧
      (visited ((form (farewell "https://app.example.com/bye") "admin" {} .standard).logout.run.trace
        (settledPage true true) { page := () })).Nodup := by
  obtain ⟨hfirst, -, hall, hnodup, hvisits⟩ := logoutCandidates_spec (farewell "https://app.example.com/bye")
  have husual : usualAddresses (farewell "https://app.example.com/bye") =
      ["https://app.example.com/logout", "https://app.example.com/signout", "https://app.example.com/auth/logout",
        "https://app.example.com/api/auth/logout"] := by decide +kernel
  refine ⟨hfirst _ rfl, (hall _).mpr (.inr ?_), hvisits (hnodup.mpr fun a ha => ?_) _ _ _ _ _⟩
  · rw [husual]
    decide
  · rw [husual, ← Option.some.inj ha]
    decide

/-- **An address can be visited twice.**  The address of the settings is one of the usual ones, not the first of them;
where none of the visits ends the session, it is visited in front of them and again in its place. -/
theorem signout_visited_twice :
    logoutCandidates (farewell "https://app.example.com/signout") =
        ["https://app.example.com/signout", "https://app.example.com/logout", "https://app.example.com/signout",
          "https://app.example.com/auth/logout", "https://app.example.com/api/auth/logout"] ∧
      ¬ (logoutCandidates (farewell "https://app.example.com/signout")).Nodup ∧
      ¬ (visited ((form (farewell "https://app.example.com/signout") "admin" {} .standard).logout.run.trace
        (settledPage true true) { page := () })).Nodup := by
  have htried : logoutCandidates (farewell "https://app.example.com/signout") =
      ["https://app.example.com/signout", "https://app.example.com/logout", "https://app.example.com/signout",
        "https://app.example.com/auth/logout", "https://app.example.com/api/auth/logout"] := by decide +kernel
  refine ⟨htried, ?_, ?_⟩
  · rw [htried]
    decide
  · decide +kernel

end SignOn.Provider
