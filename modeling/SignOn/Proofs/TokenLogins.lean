import SignOn.Proofs.FlowOrder
import SignOn.Proofs.TokenStorage

/-! # What a login asks of an endpoint and of the page

A login at an endpoint makes attempts.  In each of them the endpoint is asked once, and if it gives out a token the
page is asked once.

* **Members.**  `JsonMembers.get?_insert` says what is found once a member is set.
* **Series.**  `Talks T` says of all that a series asks of the endpoint and of the page, and of its outcome, that
  they are made up of attempts in `T`, all of them but the last one with failures that pass (`Series.talks`).
* **Attempts.**  `Provider.Tries` lists what one attempt may ask (`Provider.tries_tokenAttempt`).
* **Logins.**  `Provider.Fits` is what holds of each such request for what comes before it, what comes behind it and
  the outcome of the login (`Provider.fits_of_talks`); `Provider.login_talk` spells it out. -/

namespace SignOn

/-! ### Members of an object -/

namespace JsonMembers

variable {key : String} {value : Json}

/-- A member that has been set is found, and all others are found as before. -/
theorem get?_insert (key : String) (value : Json) (k : String) (ms : JsonMembers) :
    (ms.insert key value).get? k = if key = k then some value else ms.get? k := by
  cases ms with
  | nil => rfl
  | cons k' v' ms =>
      have ih := get?_insert key value k ms
      rw [insert]
      split
      · rfl
      · split
        · next heq =>
            subst heq
            rw [get?, get?]
            split <;> rfl
        · next hne =>
            rw [get?, get?, ih]
            by_cases hk : k' = k
            · rw [if_pos hk, if_pos hk, if_neg (hk ▸ hne)]
            · rw [if_neg hk, if_neg hk]

theorem eq_or_mem_of_mem_insert {m : String × Json} :
    ∀ {ms : JsonMembers}, m ∈ (ms.insert key value).toList → m = (key, value) ∨ m ∈ ms.toList
  | .nil, h => .inl (List.mem_singleton.mp h)
  | .cons k v ms, h => by
    rw [insert] at h
    split at h
    · exact List.mem_cons.mp h
    · split at h
      · exact (List.mem_cons.mp h).imp_right (List.mem_cons_of_mem _)
      · rcases List.mem_cons.mp h with rfl | h
        · exact .inr List.mem_cons_self
        · exact (eq_or_mem_of_mem_insert h).imp_right (List.mem_cons_of_mem _)

def Ascends (ms : JsonMembers) : Prop :=
  ms.toList.Pairwise fun m m' => m.1 < m'.1

theorem Ascends.insert : ∀ {ms : JsonMembers}, ms.Ascends → (ms.insert key value).Ascends
  | .nil, _ => List.pairwise_singleton _ _
  | .cons k v ms, h => by
    obtain ⟨hhead, htail⟩ := List.pairwise_cons.mp h
    rw [JsonMembers.insert]
    split
    · next hlt =>
        refine List.pairwise_cons.mpr ⟨fun m hm => ?_, h⟩
        rcases List.mem_cons.mp hm with rfl | hm
        · exact hlt
        · exact String.lt_trans hlt (hhead m hm)
    · split
      · next heq => exact List.pairwise_cons.mpr ⟨heq ▸ hhead, htail⟩
      · next hnot hne =>
          have hlt : k < key := Std.lt_of_le_of_ne (String.not_lt.mp hnot) (Ne.symm hne)
          refine List.pairwise_cons.mpr ⟨fun m hm => ?_, Ascends.insert htail⟩
          rcases eq_or_mem_of_mem_insert hm with rfl | hm
          · exact hlt
          · exact hhead m hm

end JsonMembers

/-! ### Series -/

/-- Something that the endpoint or the page is asked to do. -/
def Request.isTalk : Request → Bool
  | .post _ | .page _ | .race .. => true
  | _ => false

section

variable {σ α : Type}

/-- What the endpoint and the page are asked to do, among some events. -/
def talk (es : List (Event σ)) : List (Event σ) :=
  es.filter (·.request.isTalk)

theorem talk_append (es es' : List (Event σ)) : talk (es ++ es') = talk es ++ talk es' :=
  List.filter_append es es'

/-- What becomes of the outcome of the last attempt: a failure keeps its phase. -/
inductive Concluded : Except AuthError α → Except AuthError α → Prop where
  | ok (a : α) : Concluded (.ok a) (.ok a)
  | error {e e' : AuthError} (h : e'.phase = e.phase) : Concluded (.error e) (.error e')

/-- Attempts in `T` one after the other, all of them but the last one with failures that pass. -/
inductive Talks (T : List (Event σ) → Except AuthError α → Prop) : List (Event σ) → Except AuthError α → Prop where
  | ends {t : List (Event σ)} {r result : Except AuthError α} (last : T t r) (same : Concluded r result) :
    Talks T t result
  | again {t t' : List (Event σ)} {e : AuthError} {result : Except AuthError α} (first : T t (.error e))
    (passes : e.isRetryable = true) (rest : Talks T t' result) : Talks T (t ++ t') result

namespace Series

variable (s : Series α) (b : PageBehaviour σ)

theorem talk_pause (k : Nat) (r : Except AuthError α) (w : World σ) : talk ((s.pause k r).trace b w) = [] := by
  cases r <;> rfl

theorem talk_conclude (r : Except AuthError α) (w : World σ) : talk ((s.conclude r).trace b w) = [] := by
  cases r with
  | ok a => rfl
  | error e =>
      unfold conclude
      dsimp only
      split <;> rfl

theorem concluded (r : Except AuthError α) (w : World σ) : Concluded r ((s.conclude r).run b w).1 := by
  cases r with
  | ok a => exact .ok a
  | error e =>
      rw [run_conclude_error]
      refine .error ?_
      split
      · rw [AuthError.afterAttempts_eq]
      · rw [AuthError.withDefaultRemediation_eq]

variable {s b} {T : List (Event σ) → Except AuthError α → Prop}

theorem talks_retryFrom (h : ∀ k w, T (talk ((s.attempt k).run.trace b w)) ((s.attempt k).run.run b w).1)
    (left k : Nat) (w : World σ) :
    Talks T (talk ((retryFrom s.policy s.role s.logger s.attempt (left + 1) k).trace b w))
      ((retryFrom s.policy s.role s.logger s.attempt (left + 1) k).run b w).1 := by
  -- On the attempts that are left: a settled outcome is the end, any other one is followed by a pause and the rest.
  induction left generalizing k w with
  | zero =>
      rw [retryFrom_succ, Plan.trace_bind, Plan.run_bind, if_pos (Or.inr rfl), talk_append, talk_conclude,
        List.append_nil]
      exact .ends (h k w) (s.concluded b _ _)
  | succ left ih =>
      rw [retryFrom_succ, Plan.trace_bind, Plan.run_bind, talk_append]
      cases hr : ((s.attempt k).run.run b w).1 with
      | ok a =>
          have hends : isSettled (.ok a : Except AuthError α) = true ∨ left + 1 = 0 := .inl rfl
          rw [if_pos hends, talk_conclude, List.append_nil]
          exact .ends (hr ▸ h k w) (s.concluded b _ _)
      | error e =>
          cases hpasses : e.isRetryable with
          | false =>
              rw [if_pos (Or.inl (by rw [isSettled, hpasses]; rfl)), talk_conclude, List.append_nil]
              exact .ends (hr ▸ h k w) (s.concluded b _ _)
          | true =>
              rw [if_neg (by simp [isSettled, hpasses]), Plan.trace_bind, Plan.run_bind, talk_append, talk_pause,
                List.nil_append]
              exact .again (hr ▸ h k w) hpasses (ih _ _)

/-- A series in which every attempt is in `T`, wherever it starts, is made up of such attempts. -/
theorem talks (h : ∀ k w, T (talk ((s.attempt k).run.trace b w)) ((s.attempt k).run.run b w).1) (w : World σ) :
    Talks T (talk ((withRetry s.policy s.role s.logger s.attempt).run.trace b w))
      ((withRetry s.policy s.role s.logger s.attempt).run.run b w).1 := by
  rw [withRetry_eq]
  exact talks_retryFrom h _ 0 w

end Series

end

/-! ### Attempts -/

namespace Provider

theorem tokenOf_eq_some_iff {s : TokenSettings} {answer : Json} {token : String} :
    tokenOf s answer = some token ↔ answer.lookup s.tokenField = some (.string token) ∧ token ≠ "" := by
  rw [tokenOf]
  split
  · next t hlookup =>
      rw [hlookup]
      split
      · next hempty =>
          subst hempty
          simp [eq_comm]
      · next hne =>
          constructor
          · rintro ⟨⟩
            exact ⟨rfl, hne⟩
          · rintro ⟨⟨⟩, -⟩
            rfl
  · next hlookup =>
      constructor
      · rintro ⟨⟩
      · rintro ⟨htoken, -⟩
        exact absurd htoken (hlookup token)

theorem answer_of_judge_eq_ok {s : TokenSettings} {role address token : String} {x : Exchange}
    (h : judge s role address x = .ok token) :
    ∃ status body answer, x = .answer status body ∧ 200 ≤ status ∧ status ≤ 299 ∧ Json.parse body = .ok answer ∧
      answer.lookup s.tokenField = some (.string token) ∧ token ≠ "" := by
  cases x with
  | timedOut | unreachable | brokenOff => cases h
  | answer status body =>
      rw [judge, judgeAnswer] at h
      split at h
      · cases h
      split at h
      · cases h
      next hstatus =>
      cases hparse : Json.parse body with
      | error e =>
          rw [hparse] at h
          cases h
      | ok answer =>
          rw [hparse] at h
          cases htoken : tokenOf s answer with
          | none =>
              simp only [htoken] at h
              cases h
          | some t =>
              simp only [htoken] at h
              cases h
              exact ⟨status, body, answer, rfl, by omega, by omega, hparse, tokenOf_eq_some_iff.mp htoken⟩

/-- An answer that rejects the credentials is a failure of theirs, and one that does not pass. -/
theorem judge_of_rejected (s : TokenSettings) (role address body : String) {status : Nat}
    (h : status = 401 ∨ status = 403) :
    ∃ e, judge s role address (.answer status body) = .error e ∧ e.phase = .credentials ∧ e.isRetryable = false := by
  rw [judge, judgeAnswer, if_pos h]
  refine ⟨_, rfl, rfl, ?_⟩
  change isRetryable ("token endpoint rejected the credentials: " ++ statusText status) = false
  rcases h with rfl | rfl <;> decide +kernel

/-- The request for a token is one request to the endpoint, unless there is no address to send it to. -/
theorem run_requestToken (s : TokenSettings) (role : String) (c : Credentials) :
    (∃ e, (requestToken s role c).run = .done (.error e)) ∨
      ∃ address, (requestToken s role c).run =
        (Plan.request (.post ⟨address, tokenRequest s c, s.timeout⟩)).bind fun x => .done (judge s role address x) := by
  unfold requestToken
  cases Endpoint.of s.endpoint with
  | noAddress => exact .inl ⟨_, rfl⟩
  | otherScheme address => exact .inl ⟨_, rfl⟩
  | reachable address => exact .inr ⟨address, Attempt.run_of_bind _ _⟩

def keepToken (s : TokenSettings) (role : String) (logger : Logger) (start : Nat) (token : String) :
    Attempt SignedOn := do
  let timestamp ← Attempt.of Plan.wallClock
  let _ ← Attempt.page role .callback (.evaluate (storeScript s ⟨token, s.headerName, s.headerPrefix, timestamp⟩))
  Attempt.of (logger.info ("stored " ++ s.headerName ++ " token for role '" ++ role ++ "' under "
    ++ s.storageKey))
  Attempt.of (SignedOn.since start)

theorem run_tokenAttempt (s : TokenSettings) (role : String) (logger : Logger) (c : Credentials) :
    (tokenAttempt s role logger c).run =
      Plan.clock.bind fun start => (requestToken s role c >>= keepToken s role logger start).run :=
  Attempt.run_of_bind _ _

section

variable {σ : Type} (b : PageBehaviour σ) (s : TokenSettings) (role : String) (logger : Logger) (c : Credentials)
  (w : World σ)

/-- The script that keeps a token for the time that a world shows. -/
def keepingScript (token : String) (w : World σ) : String :=
  storeScript s ⟨token, s.headerName, s.headerPrefix, w.wall⟩

theorem talk_keepToken (start : Nat) (token : String) :
    ∃ r, talk ((keepToken s role logger start token).run.trace b w) =
        [⟨w, .page (.evaluate (keepingScript s token w)), some r⟩] ∧
      match r with
      | .ok _ => ∃ a, ((keepToken s role logger start token).run.run b w).1 = .ok a
      | .error _ => ∃ e, ((keepToken s role logger start token).run.run b w).1 = .error e := by
  let call : Attempt Json := Attempt.page role .callback (.evaluate (keepingScript s token w))
  have hcall : call.run.run b w = _ := Attempt.run_page b role .callback (.evaluate (keepingScript s token w)) w
  have htrace : call.run.trace b w = _ := Attempt.trace_page b role .callback (.evaluate (keepingScript s token w)) w
  let finish : Attempt SignedOn := do
    Attempt.of (logger.info ("stored " ++ s.headerName ++ " token for role '" ++ role ++ "' under " ++ s.storageKey))
    Attempt.of (SignedOn.since start)
  have hfinish : ∀ v : World σ, talk (finish.run.trace b v) = [] ∧ ∃ a, (finish.run.run b v).1 = .ok a := fun v =>
    ⟨rfl, _, rfl⟩
  refine ⟨(b.respond (.evaluate (keepingScript s token w)) w.page w.now).outcome, ?_⟩
  change talk (⟨w, .wallClock, some w.wall⟩ :: (call >>= fun _ => finish).run.trace b w) = _ ∧
    match (b.respond (.evaluate (keepingScript s token w)) w.page w.now).outcome with
    | .ok _ => ∃ a, ((call >>= fun _ => finish).run.run b w).1 = .ok a
    | .error _ => ∃ e, ((call >>= fun _ => finish).run.run b w).1 = .error e
  cases hr : (b.respond (.evaluate (keepingScript s token w)) w.page w.now).outcome with
  | ok x =>
      rw [hr] at hcall htrace
      obtain ⟨hquiet, hok⟩ := hfinish (w.step b (.page (.evaluate (keepingScript s token w)))).after
      rw [Attempt.trace_bind_of_ok hcall, Attempt.run_bind_of_ok hcall, htrace]
      refine ⟨?_, hok⟩
      rw [← List.cons_append, talk_append, hquiet]
      rfl
  | error e =>
      rw [hr] at hcall htrace
      rw [Attempt.trace_bind_of_error hcall, Attempt.run_bind_of_error hcall, htrace]
      exact ⟨rfl, _, rfl⟩

/-- What an attempt may ask of the endpoint and of the page, and its outcome. -/
inductive Tries : List (Event σ) → Except AuthError SignedOn → Prop where
  | unsent (e : AuthError) : Tries [] (.error e)
  | refused {v : World σ} {post : Post} {x : Exchange} {address : String} {e : AuthError}
    (body : post.body = tokenRequest s c) (refuses : judge s role address x = .error e) :
    Tries [⟨v, .post post, some x⟩] (.error e)
  | failed {v u : World σ} {post : Post} {x : Exchange} {address token : String} {pe : PageError} {e : AuthError}
    (body : post.body = tokenRequest s c) (gives : judge s role address x = .ok token) :
    Tries [⟨v, .post post, some x⟩, ⟨u, .page (.evaluate (keepingScript s token u)), some (.error pe)⟩] (.error e)
  | stored {v u : World σ} {post : Post} {x : Exchange} {address token : String} {y : Json} {a : SignedOn}
    (body : post.body = tokenRequest s c) (gives : judge s role address x = .ok token) :
    Tries [⟨v, .post post, some x⟩, ⟨u, .page (.evaluate (keepingScript s token u)), some (.ok y)⟩] (.ok a)

theorem tries_tokenAttempt :
    Tries s role c (talk ((tokenAttempt s role logger c).run.trace b w))
      ((tokenAttempt s role logger c).run.run b w).1 := by
  rw [run_tokenAttempt]
  change Tries s role c (talk (⟨w, .clock, some w.now⟩ ::
      (requestToken s role c >>= keepToken s role logger w.now).run.trace b w))
    ((requestToken s role c >>= keepToken s role logger w.now).run.run b w).1
  rcases run_requestToken s role c with ⟨e, he⟩ | ⟨address, hrequest⟩
  · have hfails : (requestToken s role c).run.run b w = (.error e, w) := by rw [he]; rfl
    rw [Attempt.trace_bind_of_error hfails, Attempt.run_bind_of_error hfails, he]
    exact .unsent e
  · let post : Post := ⟨address, tokenRequest s c, s.timeout⟩
    obtain ⟨x, v, hpost⟩ : ∃ x v, World.postStep post w = (x, v) := ⟨_, _, rfl⟩
    have hrun : (requestToken s role c).run.run b w = (judge s role address x, v) := by
      rw [hrequest]
      change (judge s role address (World.postStep post w).1, (World.postStep post w).2) = _
      rw [hpost]
    have htrace : (requestToken s role c).run.trace b w = [⟨w, .post post, some x⟩] := by
      rw [hrequest]
      change [(⟨w, .post post, some (World.postStep post w).1⟩ : Event σ)] = _
      rw [hpost]
    cases hjudge : judge s role address x with
    | error e =>
        rw [hjudge] at hrun
        rw [Attempt.trace_bind_of_error hrun, Attempt.run_bind_of_error hrun, htrace]
        exact .refused rfl hjudge
    | ok token =>
        rw [hjudge] at hrun
        rw [Attempt.trace_bind_of_ok hrun, Attempt.run_bind_of_ok hrun, htrace]
        obtain ⟨r, htalk, hresult⟩ := talk_keepToken b s role logger v w.now token
        rw [← List.cons_append, talk_append, htalk]
        cases r with
        | ok y =>
            obtain ⟨a, ha⟩ := hresult
            rw [ha]
            exact .stored rfl hjudge
        | error pe =>
            obtain ⟨e, he⟩ := hresult
            rw [he]
            exact .failed rfl hjudge

end

/-! ### Logins -/

section

variable {σ : Type} {s : TokenSettings} {role : String} {c : Credentials}

/-- What holds of a request of a login for the requests before it, for those behind it and for the outcome: the
endpoint is asked with the credentials, and asked no more once it has rejected them; the page is asked to keep the
token of the answer before, and nothing is asked any more once it has done so. -/
inductive Fits (s : TokenSettings) (c : Credentials) (result : Except AuthError SignedOn) :
    List (Event σ) → Event σ → List (Event σ) → Prop where
  | post {before after : List (Event σ)} {v : World σ} {post : Post} {x : Exchange}
    (body : post.body = tokenRequest s c)
    (rejects : ∀ status text, x = .answer status text → status = 401 ∨ status = 403 →
      after = [] ∧ ∃ e, result = .error e ∧ e.phase = .credentials) :
    Fits s c result before ⟨v, .post post, some x⟩ after
  | script {before after : List (Event σ)} {u v : World σ} {post : Post} {status : Nat} {text token : String}
    {answer : Json} {r : Except PageError Json} (succeeds : 200 ≤ status ∧ status ≤ 299)
    (reads : Json.parse text = .ok answer) (holds : answer.lookup s.tokenField = some (.string token))
    (nonempty : token ≠ "") (keeps : (∃ y, r = .ok y) → after = [] ∧ ∃ a, result = .ok a) :
    Fits s c result (before ++ [⟨u, .post post, some (.answer status text)⟩])
      ⟨v, .page (.evaluate (keepingScript s token v)), some r⟩ after

variable {result : Except AuthError SignedOn} {before after : List (Event σ)} {e : Event σ}

theorem Fits.prepend (earlier : List (Event σ)) (h : Fits s c result before e after) :
    Fits s c result (earlier ++ before) e after := by
  cases h with
  | post body rejects => exact .post body rejects
  | script succeeds reads holds nonempty keeps =>
      rw [← List.append_assoc]
      exact .script succeeds reads holds nonempty keeps

/-- An attempt with some outcome is the last one of a login, or its failure passes. -/
def EndsWith (r result : Except AuthError SignedOn) (later : List (Event σ)) : Prop :=
  later = [] ∧ Concluded r result ∨ ∃ e, r = .error e ∧ e.isRetryable = true

theorem EndsWith.of_rejected {address text : String} {status : Nat} {failure : AuthError} {later : List (Event σ)}
    (h : EndsWith (.error failure) result later) (hstatus : status = 401 ∨ status = 403)
    (hjudge : judge s role address (.answer status text) = .error failure) :
    later = [] ∧ ∃ e, result = .error e ∧ e.phase = .credentials := by
  obtain ⟨rejection, hrejects, hphase, hlasts⟩ := judge_of_rejected s role address text hstatus
  obtain rfl : failure = rejection := Except.error.inj (hjudge.symm.trans hrejects)
  rcases h with ⟨hlast, hsame⟩ | ⟨e, he, hpasses⟩
  · cases hsame with
    | error h => exact ⟨hlast, _, rfl, h.trans hphase⟩
  · cases he
    rw [hlasts] at hpasses
    cases hpasses

theorem Fits.of_judge {address token : String} {x : Exchange} {u v : World σ} {post : Post}
    {r : Except PageError Json} (h : judge s role address x = .ok token)
    (keeps : (∃ y, r = .ok y) → after = [] ∧ ∃ a, result = .ok a) :
    Fits s c result [⟨u, .post post, some x⟩] ⟨v, .page (.evaluate (keepingScript s token v)), some r⟩ after := by
  obtain ⟨status, text, answer, rfl, hlow, hhigh, hreads, hholds, hnonempty⟩ := answer_of_judge_eq_ok h
  exact List.nil_append [_] ▸ .script ⟨hlow, hhigh⟩ hreads hholds hnonempty keeps

theorem Fits.of_gives {address token : String} {x : Exchange} {v : World σ} {post : Post}
    (body : post.body = tokenRequest s c) (h : judge s role address x = .ok token) :
    Fits s c result before ⟨v, .post post, some x⟩ after := by
  refine .post body fun status text hx hstatus => ?_
  obtain ⟨rejection, hrejects, -, -⟩ := judge_of_rejected s role address text hstatus
  rw [← hx, h] at hrejects
  cases hrejects

theorem eq_of_singleton_eq_append {β : Type} {x e : β} {before after : List β} (h : [x] = before ++ e :: after) :
    before = [] ∧ e = x ∧ after = [] := by
  rcases List.append_eq_singleton_iff.mp h.symm with ⟨rfl, htail⟩ | ⟨-, htail⟩
  · obtain ⟨rfl, rfl⟩ := List.cons.inj htail
    exact ⟨rfl, rfl, rfl⟩
  · cases htail

theorem eq_of_pair_eq_append {β : Type} {x y e : β} {before after : List β} (h : [x, y] = before ++ e :: after) :
    before = [] ∧ e = x ∧ after = [y] ∨ before = [x] ∧ e = y ∧ after = [] := by
  cases before with
  | nil =>
      obtain ⟨rfl, rfl⟩ := List.cons.inj h
      exact .inl ⟨rfl, rfl, rfl⟩
  | cons z before =>
      obtain ⟨rfl, htail⟩ := List.cons.inj h
      obtain ⟨rfl, rfl, rfl⟩ := eq_of_singleton_eq_append htail
      exact .inr ⟨rfl, rfl, rfl⟩

theorem Tries.fits {t later : List (Event σ)} {r : Except AuthError SignedOn} (h : Tries s role c t r)
    (hends : EndsWith r result later) (ht : t = before ++ e :: after) : Fits s c result before e (after ++ later) := by
  cases h with
  | unsent e => exact absurd ht.symm (List.append_ne_nil_of_right_ne_nil _ (List.cons_ne_nil _ _))
  | refused body refuses =>
      obtain ⟨rfl, rfl, rfl⟩ := eq_of_singleton_eq_append ht
      refine .post body fun status text hx hstatus => ?_
      rw [List.nil_append]
      exact hends.of_rejected hstatus (hx ▸ refuses)
  | @failed v u post x address token pe failure body gives =>
      rcases eq_of_pair_eq_append ht with ⟨rfl, rfl, rfl⟩ | ⟨rfl, rfl, rfl⟩
      · exact .of_gives body gives
      · refine .of_judge gives ?_
        rintro ⟨y, hy⟩
        cases hy
  | @stored v u post x address token y a body gives =>
      rcases eq_of_pair_eq_append ht with ⟨rfl, rfl, rfl⟩ | ⟨rfl, rfl, rfl⟩
      · exact .of_gives body gives
      · refine .of_judge gives fun _ => ?_
        rcases hends with ⟨rfl, hsame⟩ | ⟨e, he, -⟩
        · cases hsame
          exact ⟨rfl, a, rfl⟩
        · cases he

/-- The requests of a whole login fit. -/
theorem fits_of_talks {t : List (Event σ)} (h : Talks (Tries s role c) t result) (ht : t = before ++ e :: after) :
    Fits s c result before e after := by
  induction h generalizing before e after with
  | @ends t r result last same =>
      have hfits := last.fits (.inl ⟨rfl, same⟩) ht
      rwa [List.append_nil] at hfits
  | @again t t' e' result first passes rest ih =>
      have hends : EndsWith (.error e') result t' := .inr ⟨e', rfl, passes⟩
      rcases List.append_eq_append_iff.mp ht with ⟨mid, rfl, hrest⟩ | ⟨mid, hfirst, hrest⟩
      · exact (ih hrest).prepend t
      · cases mid with
        | nil =>
            have hfits : Fits s c result [] e after := ih hrest.symm
            rw [← List.append_nil before]
            exact hfits.prepend before
        | cons m mid =>
            obtain ⟨rfl, rfl⟩ := List.cons.inj hrest
            exact first.fits hends hfirst

/-- A login that succeeds has asked the page to keep a token, and the page has done so. -/
theorem exists_kept_of_talks {t : List (Event σ)} (h : Talks (Tries s role c) t result) {a : SignedOn}
    (hok : result = .ok a) : ∃ v script y, (⟨v, .page (.evaluate script), some (.ok y)⟩ : Event σ) ∈ t := by
  induction h with
  | ends last same =>
      subst hok
      cases same
      cases last with
      | stored body gives => exact ⟨_, _, _, List.mem_cons_of_mem _ List.mem_cons_self⟩
  | again first passes rest ih =>
      obtain ⟨v, script, y, hmem⟩ := ih hok
      exact ⟨v, script, y, List.mem_append_right _ hmem⟩

end

section

variable {σ : Type} (s : TokenSettings) (role : String) (retry : RetryPolicy) (logger : Logger) (c : Credentials)

/-- The members of a request for a token: the credentials, and the further fields under all other keys. -/
theorem exists_members_tokenRequest :
    ∃ members, tokenRequest s c = .object members ∧
      (∀ key, members.get? key =
        if key = s.passwordField then some (.string c.password)
        else if key = s.usernameField then some (.string c.username)
        else s.extraFields.get? key) ∧
      (s.extraFields.Ascends → members.Ascends) := by
  refine ⟨_, rfl, fun key => ?_, fun h => h.insert.insert⟩
  rw [JsonMembers.get?_insert, JsonMembers.get?_insert]
  simp only [eq_comm]

theorem talks_login (b : PageBehaviour σ) (w : World σ) :
    Talks (Tries s role c) (talk (((token s role retry logger).login c).run.trace b w))
      (((token s role retry logger).login c).run.run b w).1 :=
  Series.talks (s := ⟨retry, role, logger, fun _ => tokenAttempt s role logger c⟩)
    (fun _ v => tries_tokenAttempt b s role logger c v) w

end

/-- **What a login asks.**  It asks the endpoint and the page only.  Each request to the endpoint holds the further
fields of the settings with the credentials over them, and behind an answer that rejects those nothing is asked any
more and the login fails for them.  The page is asked only right behind an answer that gives out a token, and only to
store that token with the header of the settings; once it has done so nothing is asked any more.  The login succeeds
just if the page has done so. -/
theorem login_talk {σ : Type} (s : TokenSettings) (role : String) (retry : RetryPolicy) (logger : Logger)
    (c : Credentials) (b : PageBehaviour σ) (w : World σ) :
    let login := ((token s role retry logger).login c).run
    let asked := talk (login.trace b w)
    let result := (login.run b w).1
    (∀ before e after, asked = before ++ e :: after →
      (∃ v post x members, e = ⟨v, .post post, some x⟩ ∧ post.body = .object members ∧
        (∀ key, members.get? key =
          if key = s.passwordField then some (.string c.password)
          else if key = s.usernameField then some (.string c.username)
          else s.extraFields.get? key) ∧
        (s.extraFields.Ascends → members.Ascends) ∧
        ∀ status text, x = .answer status text → status = 401 ∨ status = 403 →
          after = [] ∧ ∃ failure, result = .error failure ∧ failure.phase = .credentials) ∨
      ∃ earlier u v post status text answer token script r, ∃ record : TokenRecord,
        before = earlier ++ [⟨u, .post post, some (.answer status text)⟩] ∧ 200 ≤ status ∧ status ≤ 299 ∧
        Json.parse text = .ok answer ∧ answer.lookup s.tokenField = some (.string token) ∧ token ≠ "" ∧
        e = ⟨v, .page (.evaluate script), some r⟩ ∧
        record = ⟨token, s.headerName, s.headerPrefix, v.wall⟩ ∧
        (StorageCall.set s.storageKey (Json.compact record.toJson)).IsScript script ∧
        (IsInt64 v.wall → Json.decode TokenRecord.decoder (Json.compact record.toJson) = .ok record) ∧
        ((∃ y, r = .ok y) → after = [])) ∧
    ((∃ a, result = .ok a) ↔
      ∃ v script y, (⟨v, .page (.evaluate script), some (.ok y)⟩ : Event σ) ∈ asked) := by
  intro login asked result
  have htalks : Talks (Tries s role c) asked result := talks_login s role retry logger c b w
  refine ⟨fun before e after hasked => ?_, ?_, ?_⟩
  · cases fits_of_talks htalks hasked with
    | @post before after v post x body rejects =>
        obtain ⟨members, hbody, hmembers, hascends⟩ := exists_members_tokenRequest s c
        exact .inl ⟨v, post, x, members, rfl, body.trans hbody, hmembers, hascends, rejects⟩
    | @script before after u v post status text token answer r succeeds reads holds nonempty keeps =>
        exact .inr ⟨before, u, v, post, status, text, answer, token, _, r, _, rfl, succeeds.1, succeeds.2, reads, holds,
          nonempty, rfl, rfl, isScript_storeScript s _, fun h => TokenRecord.decode_compact h, fun h => (keeps h).1⟩
  · rintro ⟨a, ha⟩
    exact exists_kept_of_talks htalks ha
  · rintro ⟨v, script, y, hmem⟩
    obtain ⟨before, after, hasked⟩ := List.append_of_mem hmem
    cases fits_of_talks htalks hasked with
    | script succeeds reads holds nonempty keeps => exact (keeps ⟨y, rfl⟩).2

/-- An endpoint whose further fields hold a password of their own. -/
def overlaid : TokenSettings :=
  { endpoint := "http://a", extraFields := .ofList [("grant", .string "password"), ("password", .string "none")] }

/-- A world in which the endpoint is silent at first, and gives out a token then. -/
def hesitantWorld : World Unit :=
  { page := ()
    wallStopped := true
    server := [.timedOut, .answer 200 "\x7b\"access_token\":\"t1\"\x7d"] }

def hesitantLogin : Plan (Except AuthError SignedOn) :=
  ((token overlaid "admin" {} .standard).login ⟨"ada", "secret"⟩).run

/-- An attempt succeeds in the end: the last that is asked is a request with the password of the credentials and, for
its answer, to store the token. -/
theorem login_talk_hesitant :
    (∃ a, (hesitantLogin.run Flow.smoothPage hesitantWorld).1 = .ok a) ∧
      ∃ earlier u v post status text script y members, talk (hesitantLogin.trace Flow.smoothPage hesitantWorld) =
          earlier ++ [⟨u, .post post, some (.answer status text)⟩, ⟨v, .page (.evaluate script), some (.ok y)⟩] ∧
        post.body = .object members ∧ members.get? "password" = some (.string "secret") ∧
        members.get? "grant" = some (.string "password") := by
  obtain ⟨hasked, hsucceeds⟩ :=
    login_talk overlaid "admin" {} .standard ⟨"ada", "secret"⟩ Flow.smoothPage hesitantWorld
  have hok : ∃ a, (hesitantLogin.run Flow.smoothPage hesitantWorld).1 = .ok a := by
    have hsome : (hesitantLogin.run Flow.smoothPage hesitantWorld).1.toBool = true := by decide +kernel
    cases hresult : (hesitantLogin.run Flow.smoothPage hesitantWorld).1 with
    | ok a => exact ⟨a, rfl⟩
    | error e =>
        rw [hresult] at hsome
        cases hsome
  refine ⟨hok, ?_⟩
  obtain ⟨v, script, y, hmem⟩ := hsucceeds.mp hok
  obtain ⟨before, after, hsplit⟩ := List.append_of_mem hmem
  rcases hasked before _ after hsplit with
    ⟨_, _, _, _, hpost, -⟩ |
      ⟨earlier, u, _, post, status, text, _, _, _, r, _, rfl, -, -, -, -, -, hscript, -, -, -, hlast⟩
  · cases hpost
  · cases hscript
    obtain rfl : after = [] := hlast ⟨y, rfl⟩
    rw [List.append_assoc] at hsplit
    rcases hasked earlier _ _ hsplit with
      ⟨_, _, _, members, hpost, hbody, hmembers, -⟩ | ⟨_, _, _, _, _, _, _, _, _, _, _, -, -, -, -, -, -, hpost, -⟩
    · cases hpost
      refine ⟨earlier, u, v, post, status, text, script, y, members, hsplit, hbody, hmembers "password", ?_⟩
      rw [hmembers]
      decide +kernel
    · cases hpost

end Provider

end SignOn
