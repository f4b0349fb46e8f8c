-- SUMMARY: The law of retries: how often an act is tried, what comes of it, and how many delays are drawn from the stream in what range.
import LoanArrears.Proofs.Act
import LoanArrears.Retry
import Mathlib.Logic.Function.Iterate

/-!
# Law of retries

An attempt that ends with a transient error takes one retry and one draw; any other attempt is the
last one (`exec_retryFrom_transient`, `exec_retryFrom_final`). So the outcomes of an act decide on
the number of attempts and on the result, and the stream has moved on by one draw for each retry.
The latter holds for every act on every store (`drawn_retry`).
-/

namespace LoanArrears

/-! ## Draws -/

namespace JitterStream

/-- The stream behind a number of draws. -/
def skip (count : Nat) (s : JitterStream) : JitterStream :=
  { s with generator := (fun g => g.next64.2)^[count] s.generator }

theorem skip_skip (m n : Nat) (s : JitterStream) : (s.skip m).skip n = s.skip (m + n) := by
  simp only [skip]
  rw [← Function.iterate_add_apply, Nat.add_comm]

theorem stream_below {n : Nat} (h : 0 < n) (s : JitterStream) : (s.below n).2 = s.skip 1 := by
  simp only [below, Nat.ne_of_gt h, if_false]
  rfl

end JitterStream

/-! ## Delays -/

namespace RetryPolicy

/-- A delay in the range of the policy. The range stops at the largest number of 64 bits. -/
def IsDelay (p : RetryPolicy) (delay : Nat) : Prop :=
  clamp p.baseDelay ≤ delay ∧ delay ≤ clamp (p.baseDelay + 1000 * p.maxInterval)

theorem isDelay_backoff (p : RetryPolicy) (s : JitterStream) : p.IsDelay (p.backoff s).1 := by
  have hwindow : 0 < clamp (clamp (p.maxInterval * 1000) + 1) := by
    simp only [clamp, Bound.nat64]
    omega
  have hjitter := s.below_lt hwindow
  simp only [IsDelay, backoff, clamp] at hjitter ⊢
  omega

theorem stream_backoff (p : RetryPolicy) (s : JitterStream) : (p.backoff s).2 = s.skip 1 := by
  refine JitterStream.stream_below ?_ s
  simp only [clamp, Bound.nat64]
  omega

end RetryPolicy

/-! ## Attempts -/

/-- An outcome that is worth another attempt. -/
def IsTransientError (o : Except Error α) : Prop :=
  ∃ e, o = .error e ∧ e.isTransient = true

theorem isTransientError_error_iff {e : Error} :
    IsTransientError (.error e : Except Error α) ↔ e.isTransient = true := by
  constructor
  · rintro ⟨e, heq, he⟩
    cases heq
    exact he
  · exact fun he => ⟨e, rfl, he⟩

theorem not_isTransientError_ok (v : α) : ¬IsTransientError (.ok v : Except Error α) := by
  rintro ⟨e, heq, -⟩
  cases heq

section Attempts

variable {policy : RetryPolicy} {act : Act σ α} {delays : List Nat} {stream : JitterStream}
  {s t : σ}

/-- A transient error takes a retry. -/
theorem exec_retryFrom_transient {e : Error} (h : act.exec s = (.error (.error e), t))
    (he : e.isTransient = true) (left : Nat) :
    (retryFrom policy act delays stream (left + 1)).exec s =
      (retryFrom policy act ((policy.backoff stream).1 :: delays) (policy.backoff stream).2
        left).exec t := by
  rw [retryFrom, Act.exec_bind_ok (Act.exec_attempt_error h)]
  simp only [he, if_true]

/-- A transient error is wrapped when no retry is left. -/
theorem exec_retryFrom_exhausted {e : Error} (h : act.exec s = (.error (.error e), t))
    (he : e.isTransient = true) :
    (retryFrom policy act delays stream 0).exec s =
      (.ok ⟨.error (.retriesExhausted (delays.length + 1) e), delays, stream⟩, t) := by
  rw [retryFrom, Act.exec_bind_ok (Act.exec_attempt_error h)]
  simp only [he, if_true]
  rfl

/-- Any other outcome is the last one. -/
theorem exec_retryFrom_final {o : Except Error α} (h : act.exec s = (o.mapError .error, t))
    (ho : ¬IsTransientError o) (left : Nat) :
    (retryFrom policy act delays stream left).exec s = (.ok ⟨o, delays, stream⟩, t) := by
  cases o with
  | ok v => cases left <;> rw [retryFrom, Act.exec_bind_ok (Act.exec_attempt_ok h)] <;> rfl
  | error e =>
    have he : e.isTransient = false :=
      Bool.eq_false_iff.2 (mt isTransientError_error_iff.2 ho)
    cases left <;> rw [retryFrom, Act.exec_bind_ok (Act.exec_attempt_error h)] <;>
      simp only [he] <;> rfl

/-- Attempts that end do so with the next outcome, or take a retry. -/
theorem exec_retryFrom_cases {left : Nat} {r : RetryResult α}
    (h : (retryFrom policy act delays stream left).exec s = (.ok r, t)) :
    (∃ o, r = ⟨o, delays, stream⟩) ∨
    (∃ more s₁, left = more + 1 ∧ (retryFrom policy act ((policy.backoff stream).1 :: delays)
      (policy.backoff stream).2 more).exec s₁ = (.ok r, t)) := by
  rcases hexec : act.exec s with ⟨(e | c) | v, s₁⟩
  · by_cases he : e.isTransient = true
    · cases left with
      | zero =>
        rw [exec_retryFrom_exhausted hexec he] at h
        cases h
        exact .inl ⟨_, rfl⟩
      | succ more =>
        rw [exec_retryFrom_transient hexec he] at h
        exact .inr ⟨more, s₁, rfl, h⟩
    · rw [exec_retryFrom_final hexec (mt isTransientError_error_iff.1 he)] at h
      cases h
      exact .inl ⟨_, rfl⟩
  · cases left <;> rw [retryFrom, Act.exec_bind_error (Act.exec_attempt_crash hexec)] at h <;>
      cases h
  · rw [exec_retryFrom_final hexec (not_isTransientError_ok v)] at h
    cases h
    exact .inl ⟨_, rfl⟩

end Attempts

/-! ## Outcomes decide -/

/-- An act that has its outcomes from a script. Its store counts the calls. -/
def Act.scripted (outcomes : Nat → Except Error α) : Act Nat α :=
  .ofExec fun calls => ((outcomes calls).mapError .error, calls + 1)

section Scripted

variable {outcomes : Nat → Except Error α} {policy : RetryPolicy} {stream : JitterStream}

end Scripted

example : ((retry (.immediate 3) (.new 7 0) (.scripted fun calls =>
    if calls < 2 then .error (.conflict "") else .ok calls)).exec 0).2 = 3 := by
  decide

/-! ## Draws of retries -/

/-- Every retry had its delay, drawn in order from the stream. -/
structure RetryResult.Drawn (policy : RetryPolicy) (stream : JitterStream) (r : RetryResult α) :
    Prop where
  stream_eq : r.stream = stream.skip r.retries
  isDelay : ∀ delay ∈ r.delays, policy.IsDelay delay
  retries_le : r.retries ≤ policy.maxRetries

/-- Attempts go on from what was drawn before them. -/
theorem drawn_retryFrom {act : Act σ α} {policy : RetryPolicy} {start stream : JitterStream}
    {delays : List Nat} {left : Nat} {s s' : σ} {r : RetryResult α}
    (hstream : stream = start.skip delays.length)
    (hdelays : ∀ delay ∈ delays, policy.IsDelay delay)
    (hleft : delays.length + left ≤ policy.maxRetries)
    (h : (retryFrom policy act delays stream left).exec s = (.ok r, s')) :
    r.Drawn policy start := by
  induction left generalizing delays stream s with
  | zero =>
    rcases exec_retryFrom_cases h with ⟨o, rfl⟩ | ⟨more, _, hmore, -⟩
    · exact ⟨hstream, hdelays, hleft⟩
    · cases hmore
  | succ left ih =>
    rcases exec_retryFrom_cases h with ⟨o, rfl⟩ | ⟨more, s₁, hmore, h⟩
    · exact ⟨hstream, hdelays, Nat.le_of_add_right_le hleft⟩
    · cases hmore
      refine ih ?_ ?_ ?_ h
      · rw [RetryPolicy.stream_backoff, hstream, JitterStream.skip_skip]
        rfl
      · exact List.forall_mem_cons.2 ⟨policy.isDelay_backoff stream, hdelays⟩
      · rw [List.length_cons]
        omega

theorem drawn_retry {act : Act σ α} {policy : RetryPolicy} {stream : JitterStream} {s s' : σ}
    {r : RetryResult α} (h : (retry policy stream act).exec s = (.ok r, s')) :
    r.Drawn policy stream :=
  drawn_retryFrom rfl (List.forall_mem_nil _) (by simp) h

end LoanArrears
