import SignOn.Proofs.Probes
import SignOn.Provider.Oidc

/-! # Refreshing a session

A session is refreshed by reloading the page.

* `Page.SameLooks`: two pages, each from a time on, that no look tells apart.  Whether one is the page behind a login
  is the same question for both (`Page.run_sessionMatches_congr`).
* `Provider.run_refreshSession` is how a refresh goes, and `Provider.refresh_spec` says of it what a session that is
  valid before comes to: if the reload changes nothing, its address decides. -/

namespace SignOn

namespace Page

variable {σ : Type} {b : PageBehaviour σ} {selector : String}

/-! ### Pages that look the same -/

/-- A relation between pages, each at a time, that no look tells apart: the address is the same, and the same elements
are visible.  A look that does not see its element takes the same time on both, and leads to such pages again, however
much time passes behind it. -/
structure Indistinct (b : PageBehaviour σ) (R : σ × Nat → σ × Nat → Prop) : Prop where
  url : ∀ {x y}, R x y → b.url x.1 x.2 = b.url y.1 y.2
  shows : ∀ {x y}, R x y → ∀ selector, Shows b selector x.1 x.2 ↔ Shows b selector y.1 y.2
  again : ∀ {x y}, R x y → ∀ selector, ¬ Shows b selector x.1 x.2 →
    let r := b.respond (.isVisible selector) x.1 x.2
    let r' := b.respond (.isVisible selector) y.1 y.2
    r.duration = r'.duration ∧ ∀ ms, R (r.page, x.2 + r.duration + ms) (r'.page, y.2 + r'.duration + ms)

/-- The pages of two worlds look the same from now on. -/
def SameLooks (b : PageBehaviour σ) (v w : World σ) : Prop :=
  ∃ R, Indistinct b R ∧ R (v.page, v.now) (w.page, w.now)

theorem SameLooks.refl (b : PageBehaviour σ) (w : World σ) : SameLooks b w w := by
  refine ⟨Eq, ⟨?_, ?_, ?_⟩, rfl⟩
  · rintro x _ rfl
    rfl
  · rintro x _ rfl selector
    exact Iff.rfl
  · rintro x _ rfl selector _
    exact ⟨rfl, fun ms => rfl⟩

theorem SameLooks.url {v w : World σ} (h : SameLooks b v w) : b.url v.page v.now = b.url w.page w.now := by
  obtain ⟨R, hR, hvw⟩ := h
  exact hR.url hvw

/-- Looks for an element go the same way on both, up to deadlines that are equally far away. -/
theorem run_waitVisibleUntil_congr {R : σ × Nat → σ × Nat → Prop} (hR : Indistinct b R) (interval fuel : Nat)
    {deadline deadline' : Nat} {v w : World σ} (h : R (v.page, v.now) (w.page, w.now))
    (haway : deadline + w.now = deadline' + v.now) :
    ((waitVisibleUntil selector interval deadline fuel).run b v).1 =
      ((waitVisibleUntil selector interval deadline' fuel).run b w).1 := by
  induction fuel generalizing v w with
  | zero => rfl
  | succ fuel ih =>
      obtain ⟨hseen, hunseen⟩ := @run_waitVisibleUntil_look σ b selector interval deadline fuel v
      obtain ⟨hseen', hunseen'⟩ := @run_waitVisibleUntil_look σ b selector interval deadline' fuel w
      by_cases hshows : Shows b selector v.page v.now
      · rw [hseen hshows, hseen' ((hR.shows h selector).mp hshows)]
      · have hhides := mt (hR.shows h selector).mpr hshows
        rw [hunseen hshows, hunseen' hhides]
        obtain ⟨hduration, hagain⟩ := hR.again h selector hshows
        have hnow : (v.step b (.page (.isVisible selector))).after.now =
            v.now + (b.respond (.isVisible selector) v.page v.now).duration := rfl
        have hnow' : (w.step b (.page (.isVisible selector))).after.now =
            w.now + (b.respond (.isVisible selector) w.page w.now).duration := rfl
        dsimp only at hduration
        by_cases hover : deadline ≤ (v.step b (.page (.isVisible selector))).after.now
        · rw [if_pos hover, if_pos (by omega)]
        · rw [if_neg hover, if_neg (by omega)]
          have hnap : deadline' - (w.step b (.page (.isVisible selector))).after.now =
              deadline - (v.step b (.page (.isVisible selector))).after.now := by omega
          rw [hnap]
          refine ih (hagain _) ?_
          simp only [World.advance]
          omega

/-- Whether this is the page behind a login is the same for pages that look the same. -/
theorem run_sessionMatches_congr {v w : World σ} (h : SameLooks b v w) (c : SuccessCriteria) (probe : Probe) :
    ((sessionMatches c probe).run b v).1 = ((sessionMatches c probe).run b w).1 := by
  obtain ⟨R, hR, hvw⟩ := h
  have hwait : ∀ selector, ((waitVisible selector probe).run b v).1 = ((waitVisible selector probe).run b w).1 := by
    intro selector
    have haway : v.now + probe.timeout + w.now = w.now + probe.timeout + v.now := by omega
    exact run_waitVisibleUntil_congr hR (max probe.interval 1) (probe.timeout + 1) hvw haway
  have hurl : b.url v.page v.now = b.url w.page w.now := hR.url hvw
  unfold sessionMatches
  split
  · rfl
  · cases c.url with
    | none =>
        cases c.selector with
        | none => rfl
        | some selector => exact hwait selector
    | some m =>
        dsimp only
        rw [Plan.bind_eq, Plan.run_url, Plan.run_url, hurl]
        by_cases hholds : m.holds (b.url w.page w.now) = true
        · rw [if_neg (not_not_intro hholds)]
          cases c.selector with
          | none => rfl
          | some selector => exact hwait selector
        · rw [if_pos hholds]
          rfl

end Page

namespace Provider

/-! ### Reloading the page -/

section

variable {σ : Type} (b : PageBehaviour σ) (s : OidcSettings) (role : String) (retry : RetryPolicy)
  (registry : Idp.Registry) (logger : Logger)

theorem isLoginAddress_eq_false_iff (address : String) : isLoginAddress s address = false ↔
    ∀ part ∈ s.loginUrl :: s.idpLoginUrl.toList, Text.contains address part = false := by
  rw [isLoginAddress, Bool.or_eq_false_iff, List.forall_mem_cons]
  cases s.idpLoginUrl with
  | none => simp
  | some part => simp

/-- A refresh succeeds if the reload does, if its address is none of the login, and if the session is found. -/
theorem run_refreshSession_eq_true_iff (v : World σ) :
    let p := oidc s role retry registry logger
    let after := (v.step b (.page (.reload s.timeouts.callback))).after
    (p.refreshSession.run b v).1 = true ↔
      (b.respond (.reload s.timeouts.callback) v.page v.now).outcome = .ok () ∧
        isLoginAddress s (b.url after.page after.now) = false ∧ (p.isSessionValid.run b after).1 = true := by
  intro p after
  change ((oidcRefresh s role logger _).run b v).1 = true ↔ _
  rw [oidcRefresh, Plan.bind_eq, Plan.run_page]
  cases (b.respond (.reload s.timeouts.callback) v.page v.now).outcome with
  | error e =>
      refine iff_of_false ?_ fun h => nomatch h.1
      exact Bool.false_ne_true
  | ok u =>
      dsimp only
      rw [Plan.bind_eq, Plan.run_url]
      cases isLoginAddress s (b.url after.page after.now) with
      | true =>
          rw [if_pos rfl]
          exact iff_of_false Bool.false_ne_true fun h => nomatch h.2.1
      | false =>
          rw [if_neg Bool.false_ne_true]
          exact ⟨fun h => ⟨rfl, rfl, h⟩, fun h => h.2.2⟩

end

/-- **What a refresh comes to.**  A session is refreshed if the page can be reloaded, if the address that it has then
holds neither the address of the login nor the part that stands for the one at the identity provider, and if the
session is found on it.  Where the session was found before, on a page that the reload leaves as it looks, nothing but
this address can make a refresh fail: it succeeds exactly if the address of the page holds none of the two. -/
theorem refresh_spec {σ : Type} (b : PageBehaviour σ) (s : OidcSettings) (role : String) (retry : RetryPolicy)
    (registry : Idp.Registry) (logger : Logger) (v : World σ) :
    let p := oidc s role retry registry logger
    let outcome := (b.respond (.reload s.timeouts.callback) v.page v.now).outcome
    let after := (v.step b (.page (.reload s.timeouts.callback))).after
    ((p.refreshSession.run b v).1 = true ↔ outcome = .ok () ∧
        (∀ part ∈ s.loginUrl :: s.idpLoginUrl.toList,
          Text.contains (b.url after.page after.now) part = false) ∧
        (p.isSessionValid.run b after).1 = true) ∧
      ∀ w, (p.isSessionValid.run b w).1 = true → outcome = .ok () → Page.SameLooks b w after →
        ((p.refreshSession.run b v).1 = true ↔ ∀ part ∈ s.loginUrl :: s.idpLoginUrl.toList,
          Text.contains (b.url w.page w.now) part = false) := by
  intro p outcome after
  have hrefresh := run_refreshSession_eq_true_iff b s role retry registry logger v
  dsimp only at hrefresh
  rw [isLoginAddress_eq_false_iff] at hrefresh
  refine ⟨hrefresh, fun w hvalid hreload hsame => ?_⟩
  have hfound : (p.isSessionValid.run b after).1 = true :=
    (Page.run_sessionMatches_congr hsame s.success s.probe).symm.trans hvalid
  rw [hrefresh, hsame.url]
  exact ⟨fun h => h.2.1, fun h => ⟨hreload, h, hfound⟩⟩

/-- A page that stays at home, whatever is asked of it. -/
def restingPage : PageBehaviour Unit where
  url _ _ := "https://app.example/home"
  respond c _ _ :=
    { duration := 0
      outcome := match c with
        | .isVisible _ => .ok true
        | .reload _ => .ok ()
        | _ => .error (.other "unexpected")
      page := ()
      abandoned := fun _ => () }

/-- The settings of an application with an address to log in at. -/
def restingSettings (loginUrl : String) : OidcSettings where
  loginUrl
  success := { url := some (.contains "/home"), selector := some "#home" }

/-- The session is valid, and the page is reloaded as it was. -/
theorem refresh_spec_restingPage :
    let p := oidc (restingSettings "https://app.example/login") "admin" {} {} .standard
    let w : World Unit := { page := () }
    ((p.isSessionValid.run restingPage w).1 = true ∧ (restingPage.respond (.reload 30000) () 0).outcome = .ok () ∧
        Page.SameLooks restingPage w (w.step restingPage (.page (.reload 30000))).after) ∧
      (p.refreshSession.run restingPage w).1 = true := by
  intro p w
  have hvalid : (p.isSessionValid.run restingPage w).1 = true := by decide +kernel
  have hreload : (restingPage.respond (.reload 30000) () 0).outcome = .ok () := rfl
  have hsame : Page.SameLooks restingPage w (w.step restingPage (.page (.reload 30000))).after :=
    .refl restingPage w
  have hrefresh := (refresh_spec restingPage (restingSettings "https://app.example/login") "admin" {} {} .standard w).2
    w hvalid hreload hsame
  exact ⟨⟨hvalid, hreload, hsame⟩, hrefresh.mpr (by decide +kernel)⟩

/-- **A session that is still there is not refreshed.**  If the login is at the front page of the application, the
address of each of its pages holds that of the login.  The session is found and the reload changes nothing, but the
page is taken for the one of the login. -/
theorem refresh_refused_at_home :
    let p := oidc (restingSettings "https://app.example/") "admin" {} {} .standard
    let w : World Unit := { page := () }
    let after := (w.step restingPage (.page (.reload 30000))).after
    (p.isSessionValid.run restingPage w).1 = true ∧ (restingPage.respond (.reload 30000) () 0).outcome = .ok () ∧
      Page.SameLooks restingPage w after ∧ (p.isSessionValid.run restingPage after).1 = true ∧
      restingPage.url after.page after.now ≠ "https://app.example/" ∧
      (p.refreshSession.run restingPage w).1 = false := by
  intro p w after
  exact ⟨by decide +kernel, rfl, .refl restingPage w, by decide +kernel, by decide +kernel, by decide +kernel⟩

end Provider

end SignOn
