import Mathlib.Data.List.TakeWhile
import SignOn.Proofs.LastingFailures
import SignOn.Proofs.Probes

/-! # Banners

When the steps of an attempt have failed, the page is searched for a banner that says why.

* `Page.ShowsText` says of one banner that it shows a text to a look at it, `Page.ShowsFirst` of several banners
  that the first one that shows a text shows this one.  The banners are looked at one after the other, and each
  look may change the page (`Page.behindLook`).
* `Page.told` is what is made of the answer of the page, `run_detectErrorIn_cons` one look, and
  `detectErrorIn_eq_some_iff` the search.
* `PageLogin.taken` is what the steps of an attempt have come to before the search, and `attempt_reports` what the
  attempt makes of it: a banner takes the place of the message, which becomes the cause, and nothing else of the
  failure changes. -/

namespace SignOn

/-! ### Texts that are no more than blanks -/

namespace Text

theorem trimStart_eq_nil_iff {cs : List Char} : trimStart cs = [] ↔ ∀ c ∈ cs, isBlank c = true :=
  List.dropWhile_eq_nil_iff

theorem trim_eq_empty_iff (s : String) : trim s = "" ↔ isAllBlank s = true := by
  rw [isAllBlank, List.all_eq_true]
  constructor
  · intro h
    have hinner : trimStart (trimStart s.toList).reverse = [] := by
      simpa [trim] using congrArg String.toList h
    rw [trimStart_eq_nil_iff] at hinner
    rw [← trimStart_eq_nil_iff]
    have hhead := List.head?_dropWhile_not isBlank s.toList
    cases hrest : trimStart s.toList with
    | nil => rfl
    | cons c rest =>
        have hblank : isBlank c = true := hinner c (by simp [hrest])
        have hkept : isBlank c = false := by
          rw [trimStart] at hrest
          simpa [hrest] using hhead
        cases hblank.symm.trans hkept
  · intro h
    rw [trim, trimStart_eq_nil_iff.mpr h]
    rfl

end Text

/-! ### Looking for a banner -/

namespace Page

variable {σ : Type} (b : PageBehaviour σ)

/-- The world behind a look at a banner: the page has been asked whether it is visible, and if so for its text. -/
def behindLook (w : World σ) (s : String) : World σ :=
  let v := (w.step b (.page (.isVisible s))).after
  match (b.respond (.isVisible s) w.page w.now).outcome with
  | .ok true => (v.step b (.page (.textContent s))).after
  | _ => v

/-- A look at the banner sees the text: the banner is visible, and what it says is more than blanks, which do not
count at either end.  A failure of the page counts as no. -/
def ShowsText (w : World σ) (s text : String) : Prop :=
  Shows b s w.page w.now ∧
    let v := (w.step b (.page (.isVisible s))).after
    ∃ raw, (b.respond (.textContent s) v.page v.now).outcome = .ok (some raw) ∧
      Text.isAllBlank raw = false ∧ text = Text.trim raw

/-- The first of several banners that shows a text shows this one. -/
inductive ShowsFirst : World σ → List String → String → Prop
  | here {w : World σ} {s : String} {rest : List String} {text : String} (h : ShowsText b w s text) :
      ShowsFirst w (s :: rest) text
  | later {w : World σ} {s : String} {rest : List String} {text : String}
      (hnone : ∀ other, ¬ ShowsText b w s other) (h : ShowsFirst (behindLook b w s) rest text) :
      ShowsFirst w (s :: rest) text

variable {b}

/-- What the page has told of a banner, trimmed, if it is more than blanks. -/
def told : Except PageError (Option String) → Option String
  | .ok (some raw) => if Text.isAllBlank raw then none else some (Text.trim raw)
  | _ => none

theorem told_eq_some_iff {outcome : Except PageError (Option String)} {text : String} :
    told outcome = some text ↔
      ∃ raw, outcome = .ok (some raw) ∧ Text.isAllBlank raw = false ∧ text = Text.trim raw := by
  unfold told
  split
  · next raw =>
      cases hblank : Text.isAllBlank raw with
      | true =>
          refine iff_of_false (Option.some_ne_none text).symm ?_
          rintro ⟨raw', hraw, hnot, -⟩
          cases hraw
          cases hblank.symm.trans hnot
      | false =>
          constructor
          · intro h
            exact ⟨raw, rfl, hblank, (Option.some.inj h).symm⟩
          · rintro ⟨raw', hraw, -, rfl⟩
            cases hraw
            rfl
  · next hno =>
      refine iff_of_false (Option.some_ne_none text).symm ?_
      rintro ⟨raw, hraw, -⟩
      exact hno raw hraw

/-- The search ends with what the page tells of a visible banner, or goes on behind it. -/
theorem run_textContent_bind (s : String) (rest : List String) (v : World σ) :
    ((do
        if let .ok (some text) ← Plan.page (.textContent s) then
          let trimmed := Text.trim text
          if trimmed ≠ "" then
            return some trimmed
        detectErrorIn rest : Plan (Option String)).run b v).1 =
      (told (b.respond (.textContent s) v.page v.now).outcome).or
        ((detectErrorIn rest).run b (v.step b (.page (.textContent s))).after).1 := by
  rw [Plan.bind_eq, Plan.run_page]
  cases (b.respond (.textContent s) v.page v.now).outcome with
  | error e => rfl
  | ok said =>
      cases said with
      | none => rfl
      | some raw =>
          dsimp only [told]
          by_cases hblank : Text.isAllBlank raw = true
          · rw [if_neg (not_not_intro ((Text.trim_eq_empty_iff raw).mpr hblank)), if_pos hblank]
            rfl
          · rw [if_pos (mt (Text.trim_eq_empty_iff raw).mp hblank), if_neg hblank]
            rfl

/-- One look: it ends the search if it finds a text, and leaves it to the next banners if not. -/
theorem run_detectErrorIn_cons (s : String) (rest : List String) (w : World σ) :
    ∃ found : Option String, (∀ text, found = some text ↔ ShowsText b w s text) ∧
      ((detectErrorIn (s :: rest)).run b w).1 = found.or ((detectErrorIn rest).run b (behindLook b w s)).1 := by
  obtain ⟨seen, hseen, hrun⟩ := run_sees b s w
  rw [detectErrorIn, Plan.bind_eq, Plan.run_bind_of_eq b hrun]
  cases seen with
  | false =>
      have hhidden : ¬ Shows b s w.page w.now := fun h => Bool.false_ne_true (hseen.mpr h)
      have hbehind : behindLook b w s = (w.step b (.page (.isVisible s))).after := by
        unfold behindLook
        split
        · next hvisible => exact absurd hvisible hhidden
        · rfl
      rw [hbehind]
      exact ⟨none, fun text => iff_of_false (Option.some_ne_none text).symm fun h => hhidden h.1, rfl⟩
  | true =>
      have hvisible : (b.respond (.isVisible s) w.page w.now).outcome = .ok true := hseen.mp rfl
      have hbehind : behindLook b w s =
          ((w.step b (.page (.isVisible s))).after.step b (.page (.textContent s))).after := by
        rw [behindLook, hvisible]
      rw [hbehind, if_pos rfl]
      exact ⟨_, fun text => told_eq_some_iff.trans (and_iff_right hvisible).symm, run_textContent_bind s rest _⟩

/-- The search finds what the first banner shows that shows a text. -/
theorem detectErrorIn_eq_some_iff {selectors : List String} {text : String} (w : World σ) :
    ((detectErrorIn selectors).run b w).1 = some text ↔ ShowsFirst b w selectors text := by
  induction selectors generalizing w with
  | nil =>
      refine iff_of_false (Option.some_ne_none text).symm ?_
      intro h
      cases h
  | cons s rest ih =>
      obtain ⟨found, hfound, hrun⟩ := run_detectErrorIn_cons (b := b) s rest w
      rw [hrun]
      cases found with
      | some shown =>
          have hshown : ShowsText b w s shown := (hfound shown).mp rfl
          rw [Option.some_or]
          constructor
          · intro h
            cases h
            exact .here hshown
          · intro h
            cases h with
            | here h => exact (hfound text).mpr h
            | later hnone h => exact absurd hshown (hnone shown)
      | none =>
          have hnone : ∀ other, ¬ ShowsText b w s other := fun other h =>
            (Option.some_ne_none other).symm ((hfound other).mpr h)
          rw [Option.none_or, ih]
          constructor
          · exact .later hnone
          · intro h
            cases h with
            | here h => exact absurd h (hnone text)
            | later _ h => exact h

theorem detectError_eq_none_iff (w : World σ) :
    (detectError.run b w).1 = none ↔ ∀ text, ¬ ShowsFirst b w errorSelectors text := by
  rw [Option.eq_none_iff_forall_ne_some]
  exact forall_congr' fun text => not_congr (detectErrorIn_eq_some_iff w)

/-! ### What a look depends on -/

/-- Two worlds with the same page at the same time. -/
def SamePage (v w : World σ) : Prop :=
  w.page = v.page ∧ w.now = v.now

section

variable {v w : World σ} {s text : String}

theorem SamePage.symm (h : SamePage v w) : SamePage w v :=
  ⟨h.1.symm, h.2.symm⟩

theorem SamePage.trans {u : World σ} (h : SamePage u v) (h' : SamePage v w) : SamePage u w :=
  ⟨h'.1.trans h.1, h'.2.trans h.2⟩

theorem SamePage.step (h : SamePage v w) (c : PageCall) :
    SamePage (v.step b (.page c)).after (w.step b (.page c)).after := by
  simp only [SamePage, World.step, World.callStep, World.advance, World.noteCall, h.1, h.2, and_self]

theorem SamePage.behindLook (h : SamePage v w) (s : String) : SamePage (behindLook b v s) (behindLook b w s) := by
  unfold Page.behindLook
  rw [h.1, h.2]
  dsimp only
  split
  · exact (h.step _).step _
  · exact h.step _

theorem showsText_congr (h : SamePage v w) : ShowsText b w s text ↔ ShowsText b v s text := by
  obtain ⟨hpage, hnow⟩ := h.step (b := b) (.isVisible s)
  simp only [ShowsText, h.1, h.2, hpage, hnow]

theorem showsFirst_congr {selectors : List String} (h : SamePage v w) (hfirst : ShowsFirst b v selectors text) :
    ShowsFirst b w selectors text := by
  induction hfirst generalizing w with
  | here hshows => exact .here ((showsText_congr h).mpr hshows)
  | later hnone _ ih =>
      exact .later (fun other hother => hnone other ((showsText_congr h).mp hother)) (ih (h.behindLook _))

end

/-- Looks take no time and leave the page as it is. -/
def Calm (b : PageBehaviour σ) : Prop :=
  ∀ s page now, ((b.respond (.isVisible s) page now).duration = 0 ∧ (b.respond (.isVisible s) page now).page = page) ∧
    (b.respond (.textContent s) page now).duration = 0 ∧ (b.respond (.textContent s) page now).page = page

theorem Calm.samePage (h : Calm b) (w : World σ) (s : String) : SamePage w (behindLook b w s) := by
  have hvisible : SamePage w (w.step b (.page (.isVisible s))).after :=
    ⟨(h s w.page w.now).1.2, congrArg (w.now + ·) (h s w.page w.now).1.1⟩
  have htext : ∀ v : World σ, SamePage v (v.step b (.page (.textContent s))).after := fun v =>
    ⟨(h s v.page v.now).2.2, congrArg (v.now + ·) (h s v.page v.now).2.1⟩
  unfold behindLook
  dsimp only
  split
  · exact hvisible.trans (htext _)
  · exact hvisible

/-- On a page that looks leave as it is, all banners are seen as they are at the start of the search. -/
theorem Calm.showsFirst_iff (hcalm : Calm b) {selectors : List String} {text : String} (w : World σ) :
    ShowsFirst b w selectors text ↔ ∃ before s after, selectors = before ++ s :: after ∧ ShowsText b w s text ∧
      ∀ t ∈ before, ∀ other, ¬ ShowsText b w t other := by
  constructor
  · intro h
    induction h with
    | @here w s rest text hshows => exact ⟨[], s, rest, rfl, hshows, fun t ht => absurd ht List.not_mem_nil⟩
    | @later w s rest text hnone _ ih =>
        obtain ⟨before, t, after, rfl, hshows, hbefore⟩ := ih
        have hsame := hcalm.samePage w s
        refine ⟨s :: before, t, after, rfl, (showsText_congr hsame).mp hshows, fun u hu other => ?_⟩
        rcases List.mem_cons.mp hu with rfl | hu
        · exact hnone other
        · exact mt (showsText_congr hsame).mpr (hbefore u hu other)
  · rintro ⟨before, s, after, rfl, hshows, hbefore⟩
    induction before with
    | nil => exact .here hshows
    | cons t before ih =>
        refine .later (hbefore t List.mem_cons_self) (showsFirst_congr (hcalm.samePage w t) ?_)
        exact ih fun u hu => hbefore u (List.mem_cons_of_mem t hu)

end Page

/-! ### What is made of a banner -/

section

variable {σ : Type} (b : PageBehaviour σ)

/-- A failure that says already what the identity provider has shown stays as it is. -/
theorem run_withBanner_of_ne_none {e : AuthError} (he : e.idpResponse ≠ none) (w : World σ) :
    ((withBanner e).run b w).1 = e := by
  have hnot : ¬ e.idpResponse.isNone = true := by simpa using he
  rw [withBanner, Plan.bind_eq, Plan.run_bind]
  cases (Page.detectError.run b w).1 with
  | none => rfl
  | some text =>
      dsimp only
      rw [if_neg hnot]
      rfl

theorem Flow.run_conclude_of_ne_none (f : Flow) (role : String) (start : Nat) (step : Flow.Step) {e : AuthError}
    (he : e.idpResponse ≠ none) (w : World σ) :
    ((f.conclude role start (step, .error e)).run b w).1 = .error e := by
  have hnot : ¬ e.idpResponse.isNone = true := by simpa using he
  unfold conclude
  dsimp only
  rw [if_neg hnot]
  rfl

end

namespace PageLogin

variable {σ : Type} (l : PageLogin) (role : String) (logger : Logger) (c : Credentials) (b : PageBehaviour σ)
  (k : Nat) (w : World σ)

/-- What the steps of attempt number `k` come to, and the world that they leave. -/
def taken : Except AuthError Unit × World σ :=
  match l with
  | oidc s registry =>
    let f := flow logger s registry
    let v := ((announce role logger k).run b w).2
    ((f.taken b role c v).1.2, (f.taken b role c v).2)
  | form s => (Provider.formLogin s role c).run.run b w

variable {l role logger c b k w}

theorem attempt_eq_ok_iff :
    (∃ a, ((l.attempt role logger c k).run.run b w).1 = .ok a) ↔ (l.taken role logger c b k w).1 = .ok () := by
  cases l with
  | oidc s registry =>
      rw [run_attempt_oidc]
      exact Flow.execute_eq_ok_iff _
  | form s =>
      rw [attempt, Provider.run_formAttempt, taken]
      cases ((Provider.formLogin s role c).run.run b w).1 with
      | ok u => exact iff_of_true ⟨_, rfl⟩ rfl
      | error e =>
          refine iff_of_false ?_ ?_
          · rintro ⟨a, h⟩
            cases h
          · intro h
            cases h

/-- What an attempt makes of a failure of its steps: it says what the first banner shows that shows a text, unless
the failure has told so itself. -/
theorem run_attempt_of_taken {e : AuthError} (h : (l.taken role logger c b k w).1 = .error e) :
    ((l.attempt role logger c k).run.run b w).1 =
      .error (if e.idpResponse = none then
          e.reported (Page.detectError.run b (l.taken role logger c b k w).2).1
        else e) := by
  cases l with
  | oidc s registry =>
      rw [run_attempt_oidc, Flow.run_execute]
      simp only [taken] at h ⊢
      generalize (flow logger s registry).taken b role c ((announce role logger k).run b w).2 = reached at h ⊢
      obtain ⟨⟨step, r⟩, v⟩ := reached
      obtain rfl : r = .error e := h
      split
      · next he =>
          rw [Flow.run_conclude_error b role _ _ step he]
          cases (Page.detectError.run b v).1 <;> rfl
      · next he => exact Flow.run_conclude_of_ne_none b _ role _ step he v
  | form s =>
      rw [taken] at h ⊢
      split
      · next he => exact Provider.run_formAttempt_error h he
      · next he =>
          rw [attempt, Provider.run_formAttempt, h]
          exact congrArg Except.error (run_withBanner_of_ne_none b he _)

theorem idpResponse_of_taken (hl : l.BuiltIn) {e : AuthError} (h : (l.taken role logger c b k w).1 = .error e) :
    e.idpResponse = none := by
  cases l with
  | oidc s registry =>
      rcases (flow logger s registry).run_entered b role c ((announce role logger k).run b w).2 with
        ⟨-, -, hok⟩ | ⟨init, last, failure, hentered, -, -, hfails, herror⟩
      · cases hok.symm.trans h
      · have hmem : last ∈ (flow logger s registry).entered b role c ((announce role logger k).run b w).2 :=
          hentered ▸ List.mem_append_right init List.mem_cons_self
        obtain ⟨-, -, cause, hcause⟩ := Flow.exists_failsBy (f := flow logger s registry) hl hmem hfails
        have hfailure : failure = e := by
          have hresult := h
          simp only [taken, herror] at hresult
          exact Except.error.inj hresult
        rw [← hfailure, hcause.eq hfails]
        exact cause.idpResponse_failure
  | form s =>
      obtain ⟨phase, err, rfl⟩ := Provider.obeys_formLogin.run b w e h
      rfl

theorem run_attempt_of_showsFirst {e : AuthError} (h : (l.taken role logger c b k w).1 = .error e)
    (he : e.idpResponse = none) {text : String}
    (hshows : Page.ShowsFirst b (l.taken role logger c b k w).2 Page.errorSelectors text) :
    ((l.attempt role logger c k).run.run b w).1 =
      .error { e with
        message := "identity provider reported: " ++ text
        cause := some e.message
        idpResponse := some text } := by
  rw [run_attempt_of_taken h, if_pos he, Page.detectError, (Page.detectErrorIn_eq_some_iff _).mpr hshows]
  rfl

theorem run_attempt_of_showsNone {e : AuthError} (h : (l.taken role logger c b k w).1 = .error e)
    (hnone : ∀ text, ¬ Page.ShowsFirst b (l.taken role logger c b k w).2 Page.errorSelectors text) :
    ((l.attempt role logger c k).run.run b w).1 = .error e := by
  rw [run_attempt_of_taken h, (Page.detectError_eq_none_iff _).mpr hnone]
  split <;> rfl

variable (l role logger c b k w)

/-- **Banners of failed logins.**  An attempt at an identity provider or through a form succeeds if its steps do.
If they fail and a banner shows a text, the first one in the order of the search, the attempt reports the failure
of the steps with that text as what the identity provider has shown, a message that quotes it, and the message of
the steps as the cause; phase, role and hint stay.  If no banner shows a text, be it that the page fails to tell,
it reports the failure of the steps as it is.  The steps of built-in handlers and of forms never say themselves
what has been shown; a failure that does is reported as it is.  It makes no difference which kind of login has
failed so on that page, and on a page that looks leave as it is the first banner is the first one of those that
show a text when the steps have failed. -/
theorem attempt_reports :
    let taken := l.taken role logger c b k w
    let reported := ((l.attempt role logger c k).run.run b w).1
    ((∃ a, reported = .ok a) ↔ taken.1 = .ok ()) ∧
      ∀ e, taken.1 = .error e →
        (l.BuiltIn → e.idpResponse = none) ∧
        (e.idpResponse ≠ none → reported = .error e) ∧
        (e.idpResponse = none → ∀ text, Page.ShowsFirst b taken.2 Page.errorSelectors text →
          reported = .error { e with
            message := "identity provider reported: " ++ text
            cause := some e.message
            idpResponse := some text }) ∧
        ((∀ text, ¬ Page.ShowsFirst b taken.2 Page.errorSelectors text) → reported = .error e) ∧
        (∀ (l' : PageLogin) (role' : String) (logger' : Logger) (c' : Credentials) (k' : Nat) (w' : World σ),
          let taken' := l'.taken role' logger' c' b k' w'
          taken'.1 = .error e → Page.SamePage taken.2 taken'.2 →
            ((l'.attempt role' logger' c' k').run.run b w').1 = reported) ∧
        (Page.Calm b → ∀ text, Page.ShowsFirst b taken.2 Page.errorSelectors text ↔
          ∃ before s after, Page.errorSelectors = before ++ s :: after ∧ Page.ShowsText b taken.2 s text ∧
            ∀ t ∈ before, ∀ other, ¬ Page.ShowsText b taken.2 t other) := by
  intro taken reported
  refine ⟨attempt_eq_ok_iff, fun e he => ⟨fun hl => idpResponse_of_taken hl he, fun htold => ?_,
    fun htold text => run_attempt_of_showsFirst he htold, run_attempt_of_showsNone he,
    fun l' role' logger' c' k' w' he' hsame => ?_, fun hcalm text => hcalm.showsFirst_iff taken.2⟩⟩
  · exact (run_attempt_of_taken he).trans (by rw [if_neg htold])
  · have hfound : (Page.detectError.run b (l'.taken role' logger' c' b k' w').2).1 =
        (Page.detectError.run b taken.2).1 := by
      refine Option.ext fun text => ?_
      rw [Page.detectError, Page.detectErrorIn_eq_some_iff, Page.detectErrorIn_eq_some_iff]
      exact ⟨Page.showsFirst_congr hsame.symm, Page.showsFirst_congr hsame⟩
    rw [run_attempt_of_taken he', hfound]
    exact (run_attempt_of_taken he).symm

/-- A page that lacks every element that is waited for.  Of its banners the first one is blank, the second one
cannot be looked at, the third one cannot be read, and the fourth one tells. -/
def mutteringPage : PageBehaviour Unit where
  url _ _ := "https://app.example/login"
  respond call _ _ :=
    { duration := 0
      outcome := match call with
        | .goto .. | .waitForUrl .. | .waitForLoadState .. | .fill .. | .click _ | .reload _ | .clearCookies =>
          .ok ()
        | .waitForSelector selector _ => .error (.selector selector)
        | .isVisible selector =>
          if selector = ".alert-error" then .error (.other "frame detached")
          else .ok (["#input-error", "#kc-error-message", "#usernameError"].contains selector)
        | .inputValue _ => .ok ""
        | .textContent selector =>
          if selector = "#input-error" then .ok (some " \n")
          else if selector = "#usernameError" then .ok (some "\tWrong password. ")
          else .error (.other "frame detached")
        | .evaluate _ => .ok .null
        | .storageState => .ok {}
      page := ()
      abandoned := fun _ => () }

theorem showsFirst_mutteringPage (w : World Unit) :
    Page.ShowsFirst mutteringPage w Page.errorSelectors "Wrong password." := by
  refine .later ?_ (.later ?_ (.later ?_ (.here ?_)))
  · rintro other ⟨-, raw, hraw, htold, -⟩
    simp only [mutteringPage, if_pos] at hraw
    obtain rfl : " \n" = raw := Option.some.inj (Except.ok.inj hraw)
    revert htold
    decide
  · rintro other ⟨hvisible, -⟩
    simp [Page.Shows, mutteringPage] at hvisible
  · rintro other ⟨-, raw, hraw, -⟩
    simp [mutteringPage] at hraw
  · exact ⟨by simp [Page.Shows, mutteringPage], "\tWrong password. ", by simp [mutteringPage], by decide, by decide⟩

/-- A login at an identity provider whose field for the user is found by the name of that. -/
def plainPortal : PageLogin :=
  .oidc { idp := .generic, loginUrl := "https://app.example/login", skipIdpRedirect := true,
          selectors := some { username := some "#user" } } {}

/-- Both kinds of logins report the banner, and keep the missing field as its cause. -/
theorem attempt_reports_mutteringPage :
    let reported := userMissing.withIdpResponse "Wrong password."
    ((plainForm.attempt "admin" .standard ⟨"ada", "secret"⟩ 0).run.run mutteringPage { page := () }).1 =
        .error reported ∧
      ((plainPortal.attempt "admin" .standard ⟨"ada", "secret"⟩ 0).run.run mutteringPage { page := () }).1 =
        .error reported := by
  intro reported
  have hform : (plainForm.taken "admin" .standard ⟨"ada", "secret"⟩ mutteringPage 0 { page := () }).1 =
      .error userMissing := by rfl
  have hportal : (plainPortal.taken "admin" .standard ⟨"ada", "secret"⟩ mutteringPage 0 { page := () }).1 =
      .error userMissing := by decide +kernel
  have hnow : (plainPortal.taken "admin" .standard ⟨"ada", "secret"⟩ mutteringPage 0 { page := () }).2.now =
      (plainForm.taken "admin" .standard ⟨"ada", "secret"⟩ mutteringPage 0 { page := () }).2.now := by decide +kernel
  obtain ⟨-, hreports⟩ := plainForm.attempt_reports "admin" .standard ⟨"ada", "secret"⟩ mutteringPage 0 { page := () }
  obtain ⟨-, -, hbanner, -, halike, -⟩ := hreports userMissing hform
  have hreported := hbanner rfl _ (showsFirst_mutteringPage _)
  exact ⟨hreported, (halike plainPortal _ _ _ _ _ hportal ⟨rfl, hnow⟩).trans hreported⟩

end PageLogin

end SignOn
