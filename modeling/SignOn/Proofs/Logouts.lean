import SignOn.Proofs.Handlers
import SignOn.Proofs.Traces
import SignOn.Provider.Form
import SignOn.Provider.Oidc

/-! # What signing off asks of the page

A role is signed off by visiting addresses and, as a last resort, by clearing the cookies.

* `Attempt.GoesOn` says that an attempt makes some requests and then goes on as another one, `Attempt.Leads` counts
  the calls to the page only.
* `Attempt.EndsByClearing` says of an attempt that its last request clears the cookies, that no other one does, and
  that the attempt comes to what that call comes to.
* `Provider.oidcLogout_clears` is about signing off through an identity provider: the cookies are cleared unless the
  visit that may come first fails.
* `Provider.SignsOff` says how addresses are visited up to the first one that ends the session, if there is one;
  `Provider.goesOn_visitCandidates` is one visit, `Provider.signsOff_visitCandidates` the induction over the addresses.
  `Provider.formLogout_visits` is about signing off from a form of the application itself. -/

namespace SignOn

/-- The calls to the page that a request makes. -/
def Request.calls : Request → List PageCall
  | .page c => [c]
  | .race m selector timeout => [.waitForUrl m timeout, .waitForSelector selector timeout]
  | _ => []

/-- The address that a call sends the page to. -/
def PageCall.destination? : PageCall → Option String
  | .goto address _ => some address
  | _ => none

/-- Requests that neither visit an address nor clear the cookies. -/
def Request.Stays (r : Request) : Prop :=
  ∀ c ∈ r.calls, c.destination? = none ∧ c ≠ .clearCookies

theorem Request.Peeks.stays {r : Request} (h : r.Peeks) : r.Stays := by
  cases r with
  | page c =>
      cases c with
      | isVisible selector =>
          intro c hc
          obtain rfl := List.mem_singleton.mp hc
          exact ⟨rfl, PageCall.noConfusion⟩
      | _ => exact h.elim
  | url | clock | sleep => exact fun _ hc => nomatch hc
  | _ => exact h.elim

section

variable {σ : Type}

/-- The calls to the page in some events, in their order. -/
def pageCalls (es : List (Event σ)) : List PageCall :=
  es.flatMap (·.request.calls)

/-- The addresses that are visited, in their order. -/
def visited (es : List (Event σ)) : List String :=
  (pageCalls es).filterMap PageCall.destination?

/-- The visits among some events. -/
def visits (es : List (Event σ)) : List (Event σ) :=
  es.filter fun e => e.request.calls.any (·.destination?.isSome)

theorem pageCalls_append (es es' : List (Event σ)) : pageCalls (es ++ es') = pageCalls es ++ pageCalls es' :=
  List.flatMap_append

theorem visited_append (es es' : List (Event σ)) : visited (es ++ es') = visited es ++ visited es' :=
  (congrArg _ (pageCalls_append es es')).trans List.filterMap_append

theorem visits_append (es es' : List (Event σ)) : visits (es ++ es') = visits es ++ visits es' :=
  List.filter_append es es'

variable {es : List (Event σ)}

theorem clearCookies_notMem_of_stays (h : ∀ e ∈ es, e.request.Stays) : .clearCookies ∉ pageCalls es := by
  intro hmem
  obtain ⟨e, he, hcall⟩ := List.mem_flatMap.mp hmem
  exact (h e he _ hcall).2 rfl

theorem visited_of_stays (h : ∀ e ∈ es, e.request.Stays) : visited es = [] := by
  refine List.filterMap_eq_nil_iff.mpr fun c hc => ?_
  obtain ⟨e, he, hcall⟩ := List.mem_flatMap.mp hc
  exact (h e he c hcall).1

theorem visits_of_visited (h : visited es = []) : visits es = [] := by
  refine List.filter_eq_nil_iff.mpr fun e he hany => ?_
  obtain ⟨c, hc, hsome⟩ := List.any_eq_true.mp hany
  have hnone := List.filterMap_eq_nil_iff.mp h c (List.mem_flatMap.mpr ⟨e, he, hc⟩)
  rw [hnone] at hsome
  cases hsome

end

/-! ### Attempts that go on as other ones -/

namespace Attempt

variable {σ α β : Type} {b : PageBehaviour σ}

/-- From a world on, an attempt makes some requests, and then goes on as another one does from there on. -/
structure GoesOn (b : PageBehaviour σ) (p : Attempt α) (w : World σ) (before : List (Event σ)) (q : Attempt α)
    (v : World σ) : Prop where
  run : p.run.run b w = q.run.run b v
  trace : p.run.trace b w = before ++ q.run.trace b v

namespace GoesOn

variable {p q : Attempt β} {u v w : World σ} {rest : List (Event σ)}

theorem refl (p : Attempt β) (w : World σ) : GoesOn b p w [] p w :=
  ⟨rfl, rfl⟩

theorem of_bind {first : Plan α} {f : α → Attempt β} {a : α} (hfirst : first.run b w = (a, u))
    (h : GoesOn b (f a) u rest q v) : GoesOn b (Attempt.of first >>= f) w (first.trace b w ++ rest) q v where
  run := by rw [run_of_bind, Plan.run_bind_of_eq b hfirst, h.run]
  trace := by rw [run_of_bind, Plan.trace_bind, hfirst, h.trace, List.append_assoc]

theorem call_bind {c : PageCall} {f : Except PageError c.Value → Attempt β} {r : Except PageError c.Value}
    (hr : (b.respond c w.page w.now).outcome = r) (h : GoesOn b (f r) (w.step b (.page c)).after rest q v) :
    GoesOn b (Attempt.of (Plan.page c) >>= f) w (⟨w, .page c, some (b.respond c w.page w.now).outcome⟩ :: rest) q v :=
  of_bind (congrArg (·, _) hr) h

theorem page_bind {role : String} {phase : AuthPhase} {c : PageCall} {f : c.Value → Attempt β} {x : c.Value}
    (hx : (b.respond c w.page w.now).outcome = .ok x) (h : GoesOn b (f x) (w.step b (.page c)).after rest q v) :
    GoesOn b (page role phase c >>= f) w (⟨w, .page c, some (b.respond c w.page w.now).outcome⟩ :: rest) q v := by
  have hcall := run_page b role phase c w
  rw [hx] at hcall
  constructor
  · exact (run_bind_of_ok hcall).trans h.run
  · rw [trace_bind_of_ok hcall, trace_page, h.trace, List.cons_append]
    rfl

theorem fails {role : String} {phase : AuthPhase} {c : PageCall} {f : c.Value → Attempt β} {before : List (Event σ)}
    (h : GoesOn b p w before (page role phase c >>= f) v) {e : PageError}
    (he : (b.respond c v.page v.now).outcome = .error e) :
    (p.run.run b w).1 = .error (.ofPage role phase e) ∧
      pageCalls (p.run.trace b w) = pageCalls before ++ [c] := by
  have hcall := run_page b role phase c v
  rw [he] at hcall
  constructor
  · exact congrArg Prod.fst (h.run.trans (run_bind_of_error hcall))
  · rw [h.trace, pageCalls_append, trace_bind_of_error hcall, trace_page]
    rfl

end GoesOn

/-- From a world on, an attempt makes some calls to the page, and then goes on as another one. -/
def Leads (b : PageBehaviour σ) (p : Attempt α) (w : World σ) (calls : List PageCall) (q : Attempt α) : Prop :=
  ∃ before v, GoesOn b p w before q v ∧ pageCalls before = calls

namespace Leads

variable {q : Attempt β} {w : World σ} {calls : List PageCall}

theorem refl (p : Attempt α) (w : World σ) : Leads b p w [] p :=
  ⟨[], w, .refl p w, rfl⟩

theorem log_bind {logger : Logger} {level : Level} {message : String} {f : Unit → Attempt β}
    (h : ∀ v : World σ, v.page = w.page → v.now = w.now → Leads b (f ()) v calls q) :
    Leads b (Attempt.of (logger.write level message) >>= f) w calls q := by
  obtain ⟨before, v, hrest, hcalls⟩ := h ((logger.write level message).run b w).2 rfl rfl
  exact ⟨_, v, .of_bind rfl hrest, hcalls⟩

theorem call_bind {c : PageCall} {f : Except PageError c.Value → Attempt β}
    (h : ∀ r v, Leads b (f r) v calls q) : Leads b (Attempt.of (Plan.page c) >>= f) w (c :: calls) q := by
  obtain ⟨before, v, hrest, hcalls⟩ := h (b.respond c w.page w.now).outcome (w.step b (.page c)).after
  exact ⟨_, v, .call_bind rfl hrest, congrArg (c :: ·) hcalls⟩

theorem page_bind {role : String} {phase : AuthPhase} {c : PageCall} {f : c.Value → Attempt β} {x : c.Value}
    (hx : (b.respond c w.page w.now).outcome = .ok x) (h : ∀ v, Leads b (f x) v calls q) :
    Leads b (page role phase c >>= f) w (c :: calls) q := by
  obtain ⟨before, v, hrest, hcalls⟩ := h (w.step b (.page c)).after
  exact ⟨_, v, .page_bind hx hrest, congrArg (c :: ·) hcalls⟩

end Leads

/-! ### Attempts that end by clearing the cookies -/

/-- The attempt ends by clearing the cookies, which it does no other time, and comes to what that call comes to. -/
def EndsByClearing (b : PageBehaviour σ) (role : String) (p : Attempt Unit) (w : World σ) : Prop :=
  ∃ before v, p.run.trace b w =
      before ++ [⟨v, .page .clearCookies, some (b.respond .clearCookies v.page v.now).outcome⟩] ∧
    .clearCookies ∉ pageCalls before ∧
    (p.run.run b w).1 = (b.respond .clearCookies v.page v.now).outcome.mapError (.ofPage role .callback)

section

variable {role : String} {p q : Attempt Unit} {v w : World σ} {before : List (Event σ)}

theorem endsByClearing_page (b : PageBehaviour σ) (role : String) (w : World σ) :
    EndsByClearing b role (page role .callback .clearCookies) w :=
  ⟨[], w, trace_page b role .callback .clearCookies w, List.not_mem_nil,
    congrArg Prod.fst (run_page b role .callback .clearCookies w)⟩

theorem GoesOn.endsByClearing (h : GoesOn b p w before q v) (hbefore : .clearCookies ∉ pageCalls before)
    (hq : EndsByClearing b role q v) : EndsByClearing b role p w := by
  obtain ⟨between, u, htrace, hbetween, hrun⟩ := hq
  refine ⟨before ++ between, u, ?_, ?_, ?_⟩
  · rw [h.trace, htrace, List.append_assoc]
  · rw [pageCalls_append]
    exact fun hmem => (List.mem_append.mp hmem).elim hbefore hbetween
  · rw [h.run, hrun]

theorem Leads.endsByClearing {calls : List PageCall} (h : Leads b p w calls (page role .callback .clearCookies))
    (hcalls : .clearCookies ∉ calls) :
    EndsByClearing b role p w ∧ pageCalls (p.run.trace b w) = calls ++ [.clearCookies] := by
  obtain ⟨before, v, hgoes, rfl⟩ := h
  refine ⟨hgoes.endsByClearing hcalls (endsByClearing_page b role v), ?_⟩
  rw [hgoes.trace, pageCalls_append]
  exact congrArg (pageCalls before ++ pageCalls ·) (trace_page b role .callback .clearCookies v)

theorem EndsByClearing.of_error (h : EndsByClearing b role p w) {e : AuthError} (he : (p.run.run b w).1 = .error e) :
    ∃ x ∈ p.run.trace b w, x.request = .page .clearCookies ∧
      ∃ failure, (b.respond .clearCookies x.world.page x.world.now).outcome = .error failure ∧
        e = .ofPage role .callback failure := by
  obtain ⟨before, v, htrace, -, hrun⟩ := h
  refine ⟨_, htrace ▸ List.mem_append_right before List.mem_cons_self, rfl, ?_⟩
  rw [hrun] at he
  cases hcall : (b.respond .clearCookies v.page v.now).outcome with
  | ok x =>
      rw [hcall] at he
      cases he
  | error failure =>
      rw [hcall] at he
      exact ⟨failure, rfl, (Except.error.inj he).symm⟩

end

end Attempt

namespace Provider

open Attempt (GoesOn Leads EndsByClearing endsByClearing_page)

variable {σ : Type} {b : PageBehaviour σ} {role : String} {logger : Logger}

/-! ### Through an identity provider -/

section

variable {s : OidcSettings} {l : LogoutSettings}

/-- What is left to do behind the visit: wait for the sign-off at the provider, if that is asked for, and clear the
cookies. -/
def clearBehind (s : OidcSettings) (l : LogoutSettings) (role : String) (logger : Logger) : Attempt Unit := do
  if l.idpLogout then
    if let .error e := ← Attempt.of (Plan.page (.waitForLoadState .networkIdle s.timeouts.callback)) then
      Attempt.of (logger.warn ("IdP logout did not settle for role '" ++ role ++ "': " ++ PageError.message e))
  Attempt.page role .callback .clearCookies

theorem oidcLogout_of_some (hl : s.logout = some l) :
    oidcLogout s role logger =
      Attempt.of (logger.info ("logging out role '" ++ role ++ "' via " ++ l.url)) >>= fun _ =>
        Attempt.page role .navigation (.goto l.url s.timeouts.idpRedirect) >>= fun _ =>
          clearBehind s l role logger := by
  rw [oidcLogout, hl]
  rfl

/-- The calls that come before the cookies are cleared. -/
def callsBefore (s : OidcSettings) : List PageCall :=
  match s.logout with
  | none => []
  | some l =>
    .goto l.url s.timeouts.idpRedirect ::
      if l.idpLogout then [.waitForLoadState .networkIdle s.timeouts.callback] else []

theorem clearCookies_notMem_callsBefore (s : OidcSettings) : .clearCookies ∉ callsBefore s := by
  unfold callsBefore
  cases s.logout with
  | none => exact List.not_mem_nil
  | some l => cases hidp : l.idpLogout <;> simp [hidp]

theorem leads_clearBehind (b : PageBehaviour σ) (s : OidcSettings) (l : LogoutSettings) (w : World σ) :
    Leads b (clearBehind s l role logger) w
      (if l.idpLogout then [.waitForLoadState .networkIdle s.timeouts.callback] else [])
      (Attempt.page role .callback .clearCookies) := by
  unfold clearBehind
  cases l.idpLogout with
  | false => exact .refl _ w
  | true =>
      simp only [if_true]
      refine .call_bind fun r v => ?_
      cases r with
      | ok u => exact .refl _ v
      | error e => exact .log_bind fun u _ _ => .refl _ u

theorem leads_oidcLogout {w : World σ}
    (harrives : ∀ l, s.logout = some l →
      (b.respond (.goto l.url s.timeouts.idpRedirect) w.page w.now).outcome = .ok ()) :
    Leads b (oidcLogout s role logger) w (callsBefore s) (Attempt.page role .callback .clearCookies) := by
  unfold callsBefore
  cases hl : s.logout with
  | none =>
      rw [oidcLogout, hl]
      exact .refl _ w
  | some l =>
      rw [oidcLogout_of_some hl]
      refine .log_bind fun v hpage hnow => ?_
      refine .page_bind (x := ()) ?_ fun u => leads_clearBehind b s l u
      rw [hpage, hnow]
      exact harrives l hl

theorem oidcLogout_of_lost (hl : s.logout = some l) {w : World σ} {e : PageError}
    (hlost : (b.respond (.goto l.url s.timeouts.idpRedirect) w.page w.now).outcome = .error e) :
    ((oidcLogout s role logger).run.run b w).1 = .error (.ofPage role .navigation e) ∧
      pageCalls ((oidcLogout s role logger).run.trace b w) = [.goto l.url s.timeouts.idpRedirect] := by
  obtain ⟨before, v, hvisit, hcalls, hpage, hnow⟩ : ∃ before v, GoesOn b (oidcLogout s role logger) w before
      (Attempt.page role .navigation (.goto l.url s.timeouts.idpRedirect) >>= fun _ => clearBehind s l role logger) v ∧
        pageCalls before = [] ∧ v.page = w.page ∧ v.now = w.now := by
    rw [oidcLogout_of_some hl]
    exact ⟨_, _, .of_bind rfl (.refl _ _), rfl, rfl, rfl⟩
  rw [← hpage, ← hnow] at hlost
  have hfails := hvisit.fails hlost
  rw [hcalls] at hfails
  exact hfails

end

/-- **Signing off through an identity provider clears the cookies unless the visit fails.**  If no address is to be
visited, or if the visit succeeds, then the cookies are cleared, once and by the last call, whatever becomes of the
wait for the provider in between, and signing off comes to what that call comes to.  A visit that fails is the last
call: signing off fails for its reason, and the cookies stay. -/
theorem oidcLogout_clears (b : PageBehaviour σ) (s : OidcSettings) (role : String) (retry : RetryPolicy)
    (registry : Idp.Registry) (logger : Logger) (w : World σ) :
    let p := (oidc s role retry registry logger).logout
    let visit (l : LogoutSettings) := (b.respond (.goto l.url s.timeouts.idpRedirect) w.page w.now).outcome
    let calls := pageCalls (p.run.trace b w)
    ((∀ l, s.logout = some l → visit l = .ok ()) →
        EndsByClearing b role p w ∧ calls = callsBefore s ++ [.clearCookies]) ∧
      ∀ l e, s.logout = some l → visit l = .error e →
        (p.run.run b w).1 = .error (.ofPage role .navigation e) ∧ calls = [.goto l.url s.timeouts.idpRedirect] := by
  intro p visit calls
  constructor
  · intro harrives
    exact (leads_oidcLogout harrives).endsByClearing (clearCookies_notMem_callsBefore s)
  · intro l e hl hlost
    exact oidcLogout_of_lost hl hlost

/-- A page that either reaches all addresses or none, and no state of loading.  What it shows does not change. -/
def settledPage (reaches shown : Bool) : PageBehaviour Unit where
  url _ _ := "https://app.example/home"
  respond c _ _ :=
    { duration := 0
      outcome := match c with
        | .goto address _ => if reaches then .ok () else .error (.navigation address "unreachable")
        | .isVisible _ => .ok shown
        | .clearCookies => .ok ()
        | _ => .error (.other "unexpected")
      page := ()
      abandoned := fun _ => () }

/-- Settings with an address to sign off at. -/
def signOffSettings : OidcSettings where
  loginUrl := "https://app.example/login"
  logout := some { url := "https://app.example/logout", idpLogout := true }

/-- A wait for the provider that fails does not keep the cookies from being cleared. -/
theorem oidcLogout_clears_settledPage :
    let p := (oidc signOffSettings "admin" {} {} .standard).logout
    EndsByClearing (settledPage true true) "admin" p { page := () } ∧
      pageCalls (p.run.trace (settledPage true true) { page := () }) =
        [.goto "https://app.example/logout" 30000, .waitForLoadState .networkIdle 30000, .clearCookies] := by
  refine (oidcLogout_clears (settledPage true true) signOffSettings "admin" {} {} .standard { page := () }).1 ?_
  intro l hl
  obtain rfl := Option.some.inj hl
  rfl

/-- **A visit that fails leaves the cookies.**  Signing off comes to an end before they are cleared. -/
theorem cookies_kept_behind_failed_visit :
    let p := (oidc signOffSettings "admin" {} {} .standard).logout
    let reason : PageError := .navigation "https://app.example/logout" "unreachable"
    (p.run.run (settledPage false true) { page := () }).1 = .error (.ofPage "admin" .navigation reason) ∧
      pageCalls (p.run.trace (settledPage false true) { page := () }) = [.goto "https://app.example/logout" 30000] := by
  intro p reason
  have hl : signOffSettings.logout = some { url := "https://app.example/logout", idpLogout := true } := rfl
  exact oidcLogout_of_lost hl rfl

/-! ### From a form of the application -/

/-- A visit that is seen to end the session: the address is reached, and the session is not found behind it. -/
def EndsSession (b : PageBehaviour σ) (s : FormSettings) (e : Event σ) : Prop :=
  ∃ address, e.request = .page (.goto address s.navigationTimeout) ∧
    (b.respond (.goto address s.navigationTimeout) e.world.page e.world.now).outcome = .ok () ∧
    ((Page.sessionMatches s.success s.probe).run b
      (e.world.step b (.page (.goto address s.navigationTimeout))).after).1 = false

/-- Some addresses are visited in their order, up to the first visit that ends the session.  That visit is the end; if
there is none, all addresses are visited, and the cookies are cleared behind them. -/
structure SignsOff (b : PageBehaviour σ) (s : FormSettings) (role : String) (addresses : List String)
    (p : Attempt Unit) (w : World σ) : Prop where
  inOrder : visited (p.run.trace b w) <+: addresses
  stops : ∀ e ∈ (visits (p.run.trace b w)).dropLast, ¬ EndsSession b s e
  ended : (∃ e ∈ visits (p.run.trace b w), EndsSession b s e) →
    (p.run.run b w).1 = .ok () ∧ .clearCookies ∉ pageCalls (p.run.trace b w)
  lasting : (∀ e ∈ visits (p.run.trace b w), ¬ EndsSession b s e) →
    visited (p.run.trace b w) = addresses ∧ EndsByClearing b role p w

section

variable {s : FormSettings} {address : String} {rest : List String} {p q : Attempt Unit} {v w : World σ}
  {others : List (Event σ)}

def visitTo (b : PageBehaviour σ) (s : FormSettings) (address : String) (w : World σ) : Event σ :=
  ⟨w, .page (.goto address s.navigationTimeout),
    some (b.respond (.goto address s.navigationTimeout) w.page w.now).outcome⟩

theorem endsSession_visitTo_iff : EndsSession b s (visitTo b s address w) ↔
    (b.respond (.goto address s.navigationTimeout) w.page w.now).outcome = .ok () ∧
      ((Page.sessionMatches s.success s.probe).run b
        (w.step b (.page (.goto address s.navigationTimeout))).after).1 = false := by
  constructor
  · rintro ⟨_, heq, hends⟩
    cases heq
    exact hends
  · exact fun hends => ⟨address, rfl, hends⟩

theorem stays_of_mem_sessionMatches {e : Event σ}
    (he : e ∈ (Page.sessionMatches s.success s.probe).trace b w) : e.request.Stays :=
  ((Page.peeks_sessionMatches s.success s.probe).of_mem_trace b he).stays

theorem stays_of_mem_log {level : Level} {message : String} {e : Event σ}
    (he : e ∈ (logger.write level message).trace b w) : e.request.Stays := by
  obtain rfl := List.mem_singleton.mp he
  exact fun _ hc => nomatch hc

theorem stays_of_mem_look {level : Level} {message : String} {u : World σ} : ∀ e ∈
    (Page.sessionMatches s.success s.probe).trace b w ++ ((logger.write level message).trace b u ++ []),
      e.request.Stays :=
  List.forall_mem_append.mpr ⟨fun _ => stays_of_mem_sessionMatches,
    List.forall_mem_append.mpr ⟨fun _ => stays_of_mem_log, List.forall_mem_nil _⟩⟩

/-- One visit: if it ends the session, that is all, and if not, the addresses behind it follow. -/
theorem goesOn_visitCandidates (b : PageBehaviour σ) (s : FormSettings) (address : String) (rest : List String)
    (w : World σ) :
    ∃ others v, (∀ e ∈ others, e.request.Stays) ∧
      (EndsSession b s (visitTo b s address w) ∧
          GoesOn b (visitCandidates s role logger (address :: rest)) w (visitTo b s address w :: others) (pure ()) v ∨
        ¬ EndsSession b s (visitTo b s address w) ∧
          GoesOn b (visitCandidates s role logger (address :: rest)) w (visitTo b s address w :: others)
            (visitCandidates s role logger rest) v) := by
  rw [visitCandidates, endsSession_visitTo_iff]
  cases hvisit : (b.respond (.goto address s.navigationTimeout) w.page w.now).outcome with
  | error e =>
      refine ⟨_, _, ?_, .inr ⟨(fun h => nomatch h.1), .call_bind hvisit (.of_bind rfl (.refl _ _))⟩⟩
      exact List.forall_mem_append.mpr ⟨fun _ => stays_of_mem_log, List.forall_mem_nil _⟩
  | ok u =>
      cases hshown : ((Page.sessionMatches s.success s.probe).run b
          (w.step b (.page (.goto address s.navigationTimeout))).after).1 with
      | false => exact ⟨_, _, stays_of_mem_look, .inl ⟨⟨rfl, rfl⟩,
          .call_bind hvisit (.of_bind (Prod.ext hshown rfl) (.of_bind rfl (.refl _ _)))⟩⟩
      | true => exact ⟨_, _, stays_of_mem_look, .inr ⟨(fun h => nomatch h.2),
          .call_bind hvisit (.of_bind (Prod.ext hshown rfl) (.of_bind rfl (.refl _ _)))⟩⟩

theorem visits_visitTo (hstays : ∀ e ∈ others, e.request.Stays) (es : List (Event σ)) :
    visits (visitTo b s address w :: others ++ es) = visitTo b s address w :: visits es := by
  rw [visits_append]
  exact congrArg (visitTo b s address w :: · ++ visits es) (visits_of_visited (visited_of_stays hstays))

theorem visited_visitTo (hstays : ∀ e ∈ others, e.request.Stays) (es : List (Event σ)) :
    visited (visitTo b s address w :: others ++ es) = address :: visited es := by
  rw [visited_append]
  exact congrArg (address :: · ++ visited es) (visited_of_stays hstays)

theorem clearCookies_notMem_visitTo (hstays : ∀ e ∈ others, e.request.Stays) :
    .clearCookies ∉ pageCalls (visitTo b s address w :: others) := by
  intro hmem
  rcases List.mem_cons.mp hmem with hvisit | hothers
  · cases hvisit
  · exact clearCookies_notMem_of_stays hstays hothers

theorem signsOff_nil (hclears : EndsByClearing b role p w) (hvisited : visited (p.run.trace b w) = []) :
    SignsOff b s role [] p w := by
  have hvisits := visits_of_visited hvisited
  constructor
  · exact hvisited ▸ List.prefix_rfl
  · rw [hvisits]
    exact fun e he => nomatch he
  · rw [hvisits]
    exact fun ⟨e, he, _⟩ => nomatch he
  · exact fun _ => ⟨hvisited, hclears⟩

theorem signsOff_of_ended (hends : EndsSession b s (visitTo b s address w)) (hstays : ∀ e ∈ others, e.request.Stays)
    (h : GoesOn b p w (visitTo b s address w :: others) (pure ()) v) : SignsOff b s role (address :: rest) p w := by
  have hvisits : visits (p.run.trace b w) = [visitTo b s address w] := by
    rw [h.trace, visits_visitTo hstays]
    rfl
  have hvisited : visited (p.run.trace b w) = [address] := by
    rw [h.trace, visited_visitTo hstays]
    rfl
  constructor
  · rw [hvisited]
    exact ⟨rest, rfl⟩
  · rw [hvisits]
    exact fun e he => nomatch he
  · refine fun _ => ⟨congrArg Prod.fst h.run, ?_⟩
    rw [h.trace, pageCalls_append]
    exact fun hmem => (List.mem_append.mp hmem).elim (clearCookies_notMem_visitTo hstays) fun hnone => nomatch hnone
  · rw [hvisits]
    exact fun hlasts => absurd hends (hlasts _ List.mem_cons_self)

theorem SignsOff.cons (hlasts : ¬ EndsSession b s (visitTo b s address w)) (hstays : ∀ e ∈ others, e.request.Stays)
    (h : GoesOn b p w (visitTo b s address w :: others) q v) (hrest : SignsOff b s role rest q v) :
    SignsOff b s role (address :: rest) p w := by
  have hvisits : visits (p.run.trace b w) = visitTo b s address w :: visits (q.run.trace b v) := by
    rw [h.trace, visits_visitTo hstays]
  have hvisited : visited (p.run.trace b w) = address :: visited (q.run.trace b v) := by
    rw [h.trace, visited_visitTo hstays]
  constructor
  · rw [hvisited]
    exact List.cons_prefix_cons.mpr ⟨rfl, hrest.inOrder⟩
  · intro e he
    rw [hvisits] at he
    cases hlater : visits (q.run.trace b v) with
    | nil =>
        rw [hlater] at he
        cases he
    | cons next later =>
        rw [hlater, List.dropLast_cons_cons, ← hlater] at he
        rcases List.mem_cons.mp he with rfl | he
        · exact hlasts
        · exact hrest.stops e he
  · rw [hvisits]
    rintro ⟨e, he, hends⟩
    rcases List.mem_cons.mp he with rfl | he
    · exact absurd hends hlasts
    · obtain ⟨hok, hcookies⟩ := hrest.ended ⟨e, he, hends⟩
      refine ⟨(congrArg Prod.fst h.run).trans hok, ?_⟩
      rw [h.trace, pageCalls_append]
      exact fun hmem => (List.mem_append.mp hmem).elim (clearCookies_notMem_visitTo hstays) hcookies
  · rw [hvisits, hvisited]
    intro hall
    obtain ⟨hvisitedRest, hclears⟩ := hrest.lasting fun e he => hall e (List.mem_cons_of_mem _ he)
    exact ⟨congrArg (address :: ·) hvisitedRest, h.endsByClearing (clearCookies_notMem_visitTo hstays) hclears⟩

end

/-- Addresses are visited up to the first visit that ends the session, and without one the cookies are cleared. -/
theorem signsOff_visitCandidates (b : PageBehaviour σ) (s : FormSettings) (addresses : List String) (w : World σ) :
    SignsOff b s role addresses (visitCandidates s role logger addresses) w := by
  induction addresses generalizing w with
  | nil =>
      have hleads : Leads b (visitCandidates s role logger []) w [] (Attempt.page role .callback .clearCookies) :=
        .log_bind fun v _ _ => .refl _ v
      obtain ⟨hclears, hcalls⟩ := hleads.endsByClearing List.not_mem_nil
      exact signsOff_nil hclears (congrArg (List.filterMap PageCall.destination?) hcalls)
  | cons address rest ih =>
      obtain ⟨others, v, hstays, ⟨hends, hgoes⟩ | ⟨hlasts, hgoes⟩⟩ := goesOn_visitCandidates b s address rest w
      · exact signsOff_of_ended hends hstays hgoes
      · exact .cons hlasts hstays hgoes (ih v)

/-- Without criteria the address of the settings is visited, if there is one, and the cookies are cleared. -/
theorem leads_formLogout (b : PageBehaviour σ) {s : FormSettings} (hunset : s.success.isSet = false) (w : World σ) :
    Leads b (formLogout s role logger) w (s.logoutUrl.toList.map (.goto · s.navigationTimeout))
      (Attempt.page role .callback .clearCookies) := by
  rw [formLogout, hunset]
  cases s.logoutUrl with
  | none => exact .log_bind fun v _ _ => .refl _ v
  | some address =>
      refine .call_bind fun r v => ?_
      cases r with
      | ok u => exact .log_bind fun v _ _ => .refl _ v
      | error e => exact .log_bind fun v _ _ => .log_bind fun v _ _ => .refl _ v

/-- **Signing off from a form visits addresses in their order, up to the first one that is seen to end the session.**
With criteria for the page behind the login, the addresses that are tried are visited up to the first visit that
succeeds and behind which the session is not found; then signing off succeeds, and the cookies stay.  If there is no
such visit, all addresses are visited, and the cookies are cleared at the end.  Without criteria only the address of the
settings is visited, and the cookies are cleared in any case.  Signing off fails only if clearing the cookies does. -/
theorem formLogout_visits (b : PageBehaviour σ) (s : FormSettings) (role : String) (retry : RetryPolicy)
    (logger : Logger) (w : World σ) :
    let p := (form s role retry logger).logout
    (s.success.isSet = true → SignsOff b s role (logoutCandidates s) p w) ∧
      (s.success.isSet = false →
        visited (p.run.trace b w) = s.logoutUrl.toList ∧ EndsByClearing b role p w) ∧
      ∀ e, (p.run.run b w).1 = .error e →
        ∃ x ∈ p.run.trace b w, x.request = .page .clearCookies ∧
          ∃ failure, (b.respond .clearCookies x.world.page x.world.now).outcome = .error failure ∧
            e = .ofPage role .callback failure := by
  intro p
  have hset (h : s.success.isSet = true) : SignsOff b s role (logoutCandidates s) p w := by
    have hp : p = visitCandidates s role logger (logoutCandidates s) := if_pos h
    rw [hp]
    exact signsOff_visitCandidates b s (logoutCandidates s) w
  have hunset (h : s.success.isSet = false) :
      visited (p.run.trace b w) = s.logoutUrl.toList ∧ EndsByClearing b role p w := by
    have hvisits : .clearCookies ∉ s.logoutUrl.toList.map (PageCall.goto · s.navigationTimeout) := by simp
    obtain ⟨hclears, hcalls⟩ : EndsByClearing b role p w ∧ pageCalls (p.run.trace b w) = _ :=
      (leads_formLogout b h w).endsByClearing hvisits
    refine ⟨?_, hclears⟩
    rw [visited, hcalls]
    cases s.logoutUrl <;> rfl
  refine ⟨hset, hunset, fun e he => ?_⟩
  cases h : s.success.isSet with
  | false => exact (hunset h).2.of_error he
  | true =>
      by_cases hends : ∃ x ∈ visits (p.run.trace b w), EndsSession b s x
      · cases ((hset h).ended hends).1.symm.trans he
      · exact ((hset h).lasting fun x hx hx' => hends ⟨x, hx, hx'⟩).2.of_error he

def formSettings (success : SuccessCriteria) : FormSettings where
  loginUrl := "https://app.example/login"
  success
  logoutUrl := some "https://app.example/bye"

/-- Where the session shows on every page, all addresses are visited before the cookies are cleared; where it shows on
none, the first address is enough. -/
theorem formLogout_visits_settledPage :
    let p := (form (formSettings { selector := some "#home" }) "admin" {} .standard).logout
    (visited (p.run.trace (settledPage true true) { page := () }) =
        ["https://app.example/bye", "https://app.example/logout", "https://app.example/signout",
          "https://app.example/auth/logout", "https://app.example/api/auth/logout"] ∧
      EndsByClearing (settledPage true true) "admin" p { page := () }) ∧
    visited (p.run.trace (settledPage true false) { page := () }) = ["https://app.example/bye"] ∧
      (p.run.run (settledPage true false) { page := () }).1 = .ok () ∧
      .clearCookies ∉ pageCalls (p.run.trace (settledPage true false) { page := () }) := by
  intro p
  have hcandidates : logoutCandidates (formSettings { selector := some "#home" }) =
      ["https://app.example/bye", "https://app.example/logout", "https://app.example/signout",
        "https://app.example/auth/logout", "https://app.example/api/auth/logout"] := by decide +kernel
  constructor
  · obtain ⟨hset, -⟩ := formLogout_visits (settledPage true true) (formSettings { selector := some "#home" }) "admin" {}
      .standard { page := () }
    rw [← hcandidates]
    refine (hset rfl).lasting fun e _ hends => ?_
    obtain ⟨address, -, -, hhidden⟩ := hends
    cases hhidden
  · obtain ⟨hset, -⟩ :=
      formLogout_visits (settledPage true false) (formSettings { selector := some "#home" }) "admin" {} .standard
        { page := () }
    have hone : visited (p.run.trace (settledPage true false) { page := () }) = ["https://app.example/bye"] := by
      decide +kernel
    refine ⟨hone, (hset rfl).ended (Classical.byContradiction fun hnone => ?_)⟩
    obtain ⟨hall, -⟩ := (hset rfl).lasting fun e he hends => hnone ⟨e, he, hends⟩
    rw [hcandidates] at hall
    cases hone.symm.trans hall

end Provider

end SignOn
