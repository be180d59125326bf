import Mathlib.Order.Bounds.Defs
import SignOn.Proofs.Plans
import SignOn.Retry

/-! # Series of attempts

A `Series` is what trying again is given: a policy, the role, a logger, and the attempts by their
numbers.

* **Outcomes.**  `Series.start`, `Series.outcome` and `Series.behind` are what attempt number `k`
  starts from, ends with and leaves if all attempts before it have failed in passing.  The outcomes
  are an endless sequence, of which a series sees a first part.
* **The last attempt** (`Series.last`) is the first one that is settled (`isSettled`), by success or
  by a failure that does not pass, and no later than the policy allows (`lastFrom_spec`).
* **Between the attempts** a series does what `Series.pause` says, and behind the last one what
  `Series.conclude` says (`retryFrom_succ`).

`withRetry_outcomes` puts the three together: which attempts are made, how long the series waits
between them, and what comes of it. -/

namespace SignOn

/-- No other attempt follows this outcome: it is a success, or a failure that does not pass. -/
def isSettled {α : Type} : Except AuthError α → Bool
  | .ok _ => true
  | .error e => !e.isRetryable

/-- How long an event waits, if it is a wait. -/
def Event.sleep? {σ : Type} (e : Event σ) : Option Nat :=
  match e.request with
  | .sleep ms => some ms
  | _ => none

/-- What trying again is given. -/
structure Series (α : Type) where
  policy : RetryPolicy
  role : String
  logger : Logger
  attempt : Nat → Attempt α

namespace Series

variable {α σ : Type} (s : Series α)

/-! ### Between attempts, and behind the last one -/

/-- What is done between attempt `k` and the next one: a line of the log, and the wait of the policy. -/
def pause (k : Nat) : Except AuthError α → Plan Unit
  | .ok _ => return
  | .error e => do
    s.logger.warn ("attempt " ++ toString (k + 1) ++ "/" ++ toString s.policy.maxAttempts
      ++ " for role '" ++ s.role ++ "' failed during " ++ e.phase.name ++ ": " ++ e.message
      ++ "; retrying in " ++ toString (s.policy.delay k) ++ "ms")
    Plan.sleep (s.policy.delay k)

/-- What is done behind the last attempt: its failure is logged, and reported as the one of the
series if it is a passing one. -/
def conclude : Except AuthError α → Plan (Except AuthError α)
  | .ok a => return .ok a
  | .error e => do
    if e.isRetryable then
      s.logger.error ("role '" ++ s.role ++ "' failed after " ++ toString s.policy.maxAttempts
        ++ " attempts, last phase " ++ e.phase.name)
      return .error (e.afterAttempts s.role s.policy.maxAttempts)
    else
      s.logger.error ("role '" ++ s.role ++ "' failed during " ++ e.phase.name
        ++ " (not retryable): " ++ e.message)
      return .error (e.withDefaultRemediation s.role)

/-- One attempt of a series: it is the last one, or a pause and the next attempts follow. -/
theorem retryFrom_succ (left k : Nat) :
    retryFrom s.policy s.role s.logger s.attempt (left + 1) k =
      (s.attempt k).run.bind fun r =>
        if isSettled r = true ∨ left = 0 then s.conclude r
        else (s.pause k r).bind fun _ =>
          retryFrom s.policy s.role s.logger s.attempt left (k + 1) := by
  rw [retryFrom]
  refine congrArg (Plan.bind (s.attempt k).run) ?_
  funext r
  cases r with
  | ok a => simp [isSettled, conclude]
  | error e =>
      cases hretry : e.isRetryable with
      | false => simp [isSettled, conclude, hretry]
      | true =>
          by_cases hleft : left = 0
          · simp [isSettled, conclude, hretry, hleft]
          · simp only [isSettled, hretry, hleft, pause, Plan.bind_eq]
            rfl

/-! ### The sequence of outcomes -/

section

variable (b : PageBehaviour σ) (w : World σ)

/-- The world in which attempt `k` starts. -/
def start : Nat → World σ
  | 0 => w
  | k + 1 =>
    let r := (s.attempt k).run.run b (start k)
    ((s.pause k r.1).run b r.2).2

def outcome (k : Nat) : Except AuthError α :=
  ((s.attempt k).run.run b (s.start b w k)).1

/-- The world that attempt `k` leaves. -/
def behind (k : Nat) : World σ :=
  ((s.attempt k).run.run b (s.start b w k)).2

theorem start_succ (k : Nat) :
    s.start b w (k + 1) = ((s.pause k (s.outcome b w k)).run b (s.behind b w k)).2 := rfl

/-- The number of the last attempt, counted on from attempt `k` if `left` may follow that one. -/
def lastFrom : (left k : Nat) → Nat
  | 0, k => k
  | left + 1, k => if isSettled (s.outcome b w k) then k else lastFrom left (k + 1)

/-- The number of the last attempt of a series. -/
def last : Nat :=
  s.lastFrom b w (s.policy.maxAttempts - 1) 0

/-- The last attempt is the first one that is settled, if that one may still be made. -/
theorem lastFrom_spec (left k : Nat) :
    k ≤ s.lastFrom b w left k ∧ s.lastFrom b w left k ≤ k + left ∧
      (∀ i, k ≤ i → i < s.lastFrom b w left k → isSettled (s.outcome b w i) = false) ∧
      (s.lastFrom b w left k < k + left → isSettled (s.outcome b w (s.lastFrom b w left k)) = true) := by
  induction left generalizing k with
  | zero =>
      rw [lastFrom]
      refine ⟨Nat.le_refl k, Nat.le_refl k, ?_, ?_⟩
      · intro i hki hik
        omega
      · intro hlt
        omega
  | succ left ih =>
      rw [lastFrom]
      cases hsettled : isSettled (s.outcome b w k) with
      | true =>
          rw [if_pos rfl]
          refine ⟨Nat.le_refl k, by omega, ?_, fun _ => hsettled⟩
          intro i hki hik
          omega
      | false =>
          rw [if_neg Bool.false_ne_true]
          obtain ⟨hle, hbound, hbefore, hlast⟩ := ih (k + 1)
          refine ⟨by omega, by omega, ?_, fun hlt => hlast (by omega)⟩
          intro i hki hik
          rcases Nat.eq_or_lt_of_le hki with rfl | hlt
          · exact hsettled
          · exact hbefore i hlt hik

/-- What is left of a series behaves like its last attempt and what is done behind that. -/
theorem run_retryFrom (left k : Nat) :
    (retryFrom s.policy s.role s.logger s.attempt (left + 1) k).run b (s.start b w k) =
      (s.conclude (s.outcome b w (s.lastFrom b w left k))).run b (s.behind b w (s.lastFrom b w left k)) := by
  induction left generalizing k with
  | zero =>
      rw [retryFrom_succ, Plan.run_bind, if_pos (Or.inr rfl), lastFrom]
      rfl
  | succ left ih =>
      rw [retryFrom_succ, Plan.run_bind, lastFrom]
      change Plan.run b (if isSettled (s.outcome b w k) = true ∨ left + 1 = 0 then _ else _) _ = _
      cases hsettled : isSettled (s.outcome b w k) with
      | true =>
          rw [if_pos (Or.inl rfl), if_pos rfl]
          rfl
      | false =>
          have hgoes : ¬ (false = true ∨ left + 1 = 0) := by simp
          rw [if_neg hgoes, if_neg Bool.false_ne_true, Plan.run_bind]
          exact ih (k + 1)

/-- The requests of an attempt that another one follows, and of the pause between them. -/
def tried (k : Nat) : List (Event σ) :=
  (s.attempt k).run.trace b (s.start b w k) ++
    (s.pause k (s.outcome b w k)).trace b (s.behind b w k)

/-- The requests of what is left of a series: those of its attempts, with the pauses between them. -/
theorem trace_retryFrom (left k : Nat) :
    (retryFrom s.policy s.role s.logger s.attempt (left + 1) k).trace b (s.start b w k) =
      (List.range' k (s.lastFrom b w left k - k)).flatMap (s.tried b w) ++
        ((s.attempt (s.lastFrom b w left k)).run.trace b (s.start b w (s.lastFrom b w left k)) ++
          (s.conclude (s.outcome b w (s.lastFrom b w left k))).trace b
            (s.behind b w (s.lastFrom b w left k))) := by
  induction left generalizing k with
  | zero =>
      rw [retryFrom_succ, Plan.trace_bind, if_pos (Or.inr rfl), lastFrom, Nat.sub_self]
      rfl
  | succ left ih =>
      rw [retryFrom_succ, Plan.trace_bind, lastFrom]
      change _ ++ Plan.trace b (if isSettled (s.outcome b w k) = true ∨ left + 1 = 0 then _ else _) _ = _
      cases hsettled : isSettled (s.outcome b w k) with
      | true =>
          rw [if_pos (Or.inl rfl), if_pos rfl, Nat.sub_self]
          rfl
      | false =>
          have hgoes : ¬ (false = true ∨ left + 1 = 0) := by simp
          have hle := (s.lastFrom_spec b w left (k + 1)).1
          have hcount : s.lastFrom b w left (k + 1) - k = s.lastFrom b w left (k + 1) - (k + 1) + 1 := by
            omega
          have hnext := ih (k + 1)
          rw [start_succ] at hnext
          rw [if_neg hgoes, if_neg Bool.false_ne_true, Plan.trace_bind, hcount, List.range'_succ,
            List.flatMap_cons, List.append_assoc, ← hnext, tried, List.append_assoc]
          rfl

end

/-! ### Whole series -/

theorem one_le_maxAttempts (p : RetryPolicy) : 1 ≤ p.maxAttempts := by
  unfold RetryPolicy.maxAttempts
  omega

theorem withRetry_eq :
    (withRetry s.policy s.role s.logger s.attempt).run =
      retryFrom s.policy s.role s.logger s.attempt (s.policy.maxAttempts - 1 + 1) 0 := by
  rw [Nat.sub_add_cancel (one_le_maxAttempts s.policy)]
  rfl

section

variable (b : PageBehaviour σ) (w : World σ)

theorem run_withRetry :
    (withRetry s.policy s.role s.logger s.attempt).run.run b w =
      (s.conclude (s.outcome b w (s.last b w))).run b (s.behind b w (s.last b w)) := by
  rw [withRetry_eq]
  exact s.run_retryFrom b w (s.policy.maxAttempts - 1) 0

/-- The number of attempts is the smaller one of what the policy allows and of the place of the first
outcome that is settled. -/
theorem isLeast_last :
    IsLeast {n | n = s.policy.maxAttempts ∨ ∃ k, n = k + 1 ∧ isSettled (s.outcome b w k) = true}
      (s.last b w + 1) := by
  have hmax := one_le_maxAttempts s.policy
  obtain ⟨-, hbound, hbefore, hlast⟩ := s.lastFrom_spec b w (s.policy.maxAttempts - 1) 0
  rw [Nat.zero_add] at hbound hlast
  constructor
  · by_cases hlt : s.last b w < s.policy.maxAttempts - 1
    · exact .inr ⟨s.last b w, rfl, hlast hlt⟩
    · have hle : s.last b w ≤ s.policy.maxAttempts - 1 := hbound
      exact .inl (by omega)
  · rintro n (rfl | ⟨k, rfl, hsettled⟩)
    · have hle : s.last b w ≤ s.policy.maxAttempts - 1 := hbound
      omega
    · rcases Nat.lt_or_ge k (s.last b w) with hlt | hge
      · have hgoes := hbefore k (Nat.zero_le k) hlt
        rw [hsettled] at hgoes
        cases hgoes
      · omega

/-- An attempt is followed by another one if its outcome is not settled and the policy allows one. -/
theorem lt_last_iff {k : Nat} (hk : k ≤ s.last b w) :
    k < s.last b w ↔ isSettled (s.outcome b w k) = false ∧ k + 1 < s.policy.maxAttempts := by
  obtain ⟨-, hbound, hbefore, hlast⟩ := s.lastFrom_spec b w (s.policy.maxAttempts - 1) 0
  change s.last b w ≤ _ at hbound
  constructor
  · intro hlt
    exact ⟨hbefore k (Nat.zero_le k) hlt, by omega⟩
  · rintro ⟨hgoes, hmax⟩
    rcases Nat.lt_or_eq_of_le hk with hlt | heq
    · exact hlt
    · have hsettled := hlast (by change s.last b w < _; omega)
      rw [heq] at hgoes
      cases hgoes.symm.trans hsettled

theorem exists_retryable {k : Nat} (hk : k < s.last b w) :
    ∃ e, s.outcome b w k = .error e ∧ e.isRetryable = true := by
  have hsettled := (s.lastFrom_spec b w (s.policy.maxAttempts - 1) 0).2.2.1 k (Nat.zero_le k) hk
  cases houtcome : s.outcome b w k with
  | ok a =>
      rw [houtcome] at hsettled
      cases hsettled
  | error e =>
      rw [houtcome] at hsettled
      exact ⟨e, rfl, by simpa [isSettled] using hsettled⟩

theorem sleeps_pause (k : Nat) (e : AuthError) (v : World σ) :
    ((s.pause k (.error e)).trace b v).filterMap Event.sleep? = [s.policy.delay k] := rfl

theorem sleeps_conclude (r : Except AuthError α) (v : World σ) :
    ((s.conclude r).trace b v).filterMap Event.sleep? = [] := by
  cases r with
  | ok a => rfl
  | error e =>
      unfold conclude
      dsimp only
      split <;> rfl

theorem run_conclude_error {e : AuthError} (v : World σ) :
    ((s.conclude (.error e)).run b v).1 =
      .error (if e.isRetryable then e.afterAttempts s.role s.policy.maxAttempts
        else e.withDefaultRemediation s.role) := by
  unfold conclude
  dsimp only
  split <;> rfl

end

end Series

/-- The hint of the phase stands in where the failure has none; nothing else changes. -/
theorem AuthError.withDefaultRemediation_eq (e : AuthError) (role : String) :
    e.withDefaultRemediation role =
      { e with remediation := some (e.remediation.getD (e.phase.remediation role)) } := by
  unfold withDefaultRemediation
  cases h : e.remediation with
  | none => rfl
  | some hint =>
      cases e
      simp only at h
      rw [h]
      rfl

theorem AuthError.afterAttempts_eq (e : AuthError) (role : String) (n : Nat) :
    e.afterAttempts role n =
      { e with
        message := "login failed after " ++ toString n ++ " attempts: " ++ e.message
        role
        remediation := some (e.remediation.getD (e.phase.remediation role)) } := by
  unfold afterAttempts
  rw [withDefaultRemediation_eq]

/-- **Trying again.**  The attempts that are made are those with the numbers from 0 on, as many as the policy
allows or up to the first outcome that is settled, whichever are fewer; their number fits into 32 bits.
Between two of them the series waits for the time of the policy, and it never waits otherwise.  It ends with
the value of the last attempt; with its failure, to which at most a hint has been added, if that does not
pass; and else, all attempts being used up, with a failure that counts them. -/
theorem withRetry_outcomes {α σ : Type} (s : Series α) (b : PageBehaviour σ) (w : World σ) :
    IsLeast {n | n = s.policy.maxAttempts ∨ ∃ k, n = k + 1 ∧ isSettled (s.outcome b w k) = true}
        (s.last b w + 1) ∧
      s.policy.maxAttempts = min (s.policy.maxRetries + 1) (UInt32.size - 1) ∧ s.last b w + 1 ≤ UInt32.size - 1 ∧
      (withRetry s.policy s.role s.logger s.attempt).run.trace b w =
        ((List.range (s.last b w)).flatMap fun k =>
            (s.attempt k).run.trace b (s.start b w k) ++
              (s.pause k (s.outcome b w k)).trace b (s.behind b w k)) ++
          ((s.attempt (s.last b w)).run.trace b (s.start b w (s.last b w)) ++
            (s.conclude (s.outcome b w (s.last b w))).trace b (s.behind b w (s.last b w))) ∧
      (∀ k < s.last b w, ((s.pause k (s.outcome b w k)).trace b (s.behind b w k)).filterMap Event.sleep? =
        [s.policy.delay k]) ∧
      ((s.conclude (s.outcome b w (s.last b w))).trace b (s.behind b w (s.last b w))).filterMap
        Event.sleep? = [] ∧
      match s.outcome b w (s.last b w) with
      | .ok a => ((withRetry s.policy s.role s.logger s.attempt).run.run b w).1 = .ok a
      | .error e =>
        if e.isRetryable then
          s.last b w + 1 = s.policy.maxAttempts ∧
            ((withRetry s.policy s.role s.logger s.attempt).run.run b w).1 =
              .error { e with
                message := "login failed after " ++ toString (s.last b w + 1) ++ " attempts: " ++ e.message
                role := s.role
                remediation := some (e.remediation.getD (e.phase.remediation s.role)) }
        else
          ((withRetry s.policy s.role s.logger s.attempt).run.run b w).1 =
            .error { e with remediation := some (e.remediation.getD (e.phase.remediation s.role)) } := by
  have hleast := s.isLeast_last b w
  have hmax : s.policy.maxAttempts = min (s.policy.maxRetries + 1) (UInt32.size - 1) := rfl
  have hcount : s.last b w + 1 ≤ s.policy.maxAttempts := hleast.2 (.inl rfl)
  have htrace := s.trace_retryFrom b w (s.policy.maxAttempts - 1) 0
  rw [← s.withRetry_eq] at htrace
  rw [Nat.sub_zero, ← List.range_eq_range'] at htrace
  refine ⟨hleast, hmax, by omega, htrace, ?_, s.sleeps_conclude b _ _, ?_⟩
  · intro k hk
    obtain ⟨e, he, -⟩ := s.exists_retryable b w hk
    rw [he]
    exact s.sleeps_pause b k e _
  · have hvalue := congrArg Prod.fst (s.run_withRetry b w)
    cases houtcome : s.outcome b w (s.last b w) with
    | ok a =>
        rw [houtcome] at hvalue
        exact hvalue
    | error e =>
        rw [houtcome, Series.run_conclude_error] at hvalue
        dsimp only
        split
        · next hretry =>
            have hall : s.last b w + 1 = s.policy.maxAttempts := by
              rcases hleast.1 with hall | ⟨k, hk, hsettled⟩
              · exact hall
              · obtain rfl : s.last b w = k := by omega
                rw [houtcome] at hsettled
                simp [isSettled, hretry] at hsettled
            rw [if_pos hretry, AuthError.afterAttempts_eq, ← hall] at hvalue
            exact ⟨hall, hvalue⟩
        · next hretry =>
            rw [if_neg hretry, AuthError.withDefaultRemediation_eq] at hvalue
            exact hvalue

end SignOn
