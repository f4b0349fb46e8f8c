-- SUMMARY: Posting a sub-batch as a machine that gives up the store after each read and each write, and is the same posting at its end.
import LoanArrears.Job.Run
import LoanArrears.Proofs.Act

/-!
# Posting step by step

Others come at the store between any two steps of a posting: after the read of a loan, after
the batch, and after each single write. A `Stage` is what the posting remembers there.
`Stage.next` does one step and `Stage.finish` all the others; a step and then the others are
what all of them are (`next_finish`), so finishing from the first stage is `SubBatch.post`.
-/

namespace LoanArrears

/-! ## Answers of the store -/

namespace Posting

/-- The posting after a call for a loan: an answer is taken over, an error skips the loan or
    ends the posting. -/
def called (p : Posting) (loan : LoanId) (failure : Error → PostFailure)
    (take : Posting → α → Posting) (r : RetryResult α) : Posting :=
  match r.outcome with
  | .ok v => take (p.note r) v
  | .error e => (p.note r).refuse loan e (failure e)

/-- The posting after a read of a loan. -/
def took (p : Posting) (loan : LoanId) : RetryResult ArrearsWrite → Posting :=
  p.called loan (.reading loan) computed

/-- The posting after a single write. -/
def wrote (p : Posting) (w : ArrearsWrite) : RetryResult Unit → Posting :=
  p.called w.loan (.writing w.loan) fun p _ => p.landed [w]

theorem writes_refuse (p : Posting) (loan : LoanId) (e : Error) (failure : PostFailure) :
    (p.refuse loan e failure).writes = p.writes := by
  unfold refuse
  split <;> rfl

theorem length_writes_took (p : Posting) (loan : LoanId) (r : RetryResult ArrearsWrite) :
    (p.took loan r).writes.length ≤ p.writes.length + 1 := by
  unfold took called
  split
  · simp [computed, note]
  · simp [writes_refuse, note]

theorem readLoan_eq [BookAccess σ] (policy : RetryPolicy) (today : Date) (p : Posting)
    (loan : LoanId) :
    (readLoan policy today p loan : Act σ Posting) =
      p.took loan <$> retry policy p.stream (computeWrite loan today .auto) := by
  rw [map_eq_pure_bind]
  unfold readLoan
  congr
  funext r
  rcases r with ⟨_ | _, _, _⟩ <;> rfl

theorem writeOne_eq [ArrearsAccess σ] (policy : RetryPolicy) (p : Posting) (w : ArrearsWrite) :
    (writeOne policy p w : Act σ Posting) =
      p.wrote w <$> retry policy p.stream (ArrearsAccess.write w) := by
  rw [map_eq_pure_bind]
  unfold writeOne
  congr
  funext r
  rcases r with ⟨_ | _, _, _⟩ <;> rfl

end Posting

/-! ## Stages -/

/-- How far a posting is. -/
inductive Stage where
  /-- Loans are still to be read, and the batch is to be written. -/
  | reading (p : Posting) (loans : List LoanId)
  /-- The batch was refused; writes are still to be done one by one. -/
  | writing (p : Posting) (writes : List ArrearsWrite)
  | done (p : Posting)

namespace Stage

def posting : Stage → Posting
  | .reading p _ | .writing p _ | .done p => p

/-- The posting goes on unless it failed. -/
def unlessFailed (rest : Posting → Stage) (p : Posting) : Stage :=
  if p.outcome.isFailed then .done p else rest p

/-- The stage after the batch. -/
def afterBatch (p : Posting) (r : RetryResult Unit) : Stage :=
  match r.outcome with
  | .ok _ => .done ((p.note r).landed p.writes)
  | .error e =>
    if e.class = .data then .writing (p.note r) p.writes else .done ((p.note r).fail (.batch e))

variable [BookAccess σ] [ArrearsAccess σ]

/-- One step: the read of a loan, the batch, or a single write. -/
def next (policy : RetryPolicy) (today : Date) : Stage → Act σ Stage
  | .reading p (loan :: loans) =>
    (unlessFailed (.reading · loans) ∘ p.took loan) <$>
      retry policy p.stream (computeWrite loan today .auto)
  | .reading p [] =>
    if p.outcome.isFailed || p.writes.isEmpty then return .done p
    else afterBatch p <$> retry policy p.stream (ArrearsAccess.writeBatch p.writes)
  | .writing p (w :: writes) =>
    (unlessFailed (.writing · writes) ∘ p.wrote w) <$>
      retry policy p.stream (ArrearsAccess.write w)
  | .writing p [] | .done p => return .done p

/-- All steps that are left. -/
def finish (policy : RetryPolicy) (today : Date) : Stage → Act σ Posting
  | .reading p loans => do
    let p ← Posting.untilFailure (Posting.readLoan policy today) p loans
    if p.outcome.isFailed || p.writes.isEmpty then pure p else p.flush policy
  | .writing p writes => Posting.untilFailure (Posting.writeOne policy) p writes
  | .done p => return p

/-- `count` steps. -/
def advance (policy : RetryPolicy) (today : Date) : Nat → Stage → Act σ Stage
  | 0, stage => return stage
  | count + 1, stage => do advance policy today count (← stage.next policy today)

variable (policy : RetryPolicy) (today : Date)

/-! ## The steps are the posting -/

theorem finish_reading (p : Posting) (loans : List LoanId) :
    ((reading p loans).finish policy today : Act σ Posting) =
      Posting.untilFailure (Posting.readLoan policy today) p loans >>= fun p =>
        if p.outcome.isFailed || p.writes.isEmpty then pure p else p.flush policy := rfl

theorem finish_done (p : Posting) :
    ((done p).finish policy today : Act σ Posting) = pure p := rfl

theorem finish_unlessFailed_writing (p : Posting) (writes : List ArrearsWrite) :
    ((unlessFailed (.writing · writes) p).finish policy today : Act σ Posting) =
      if p.outcome.isFailed then pure p
      else Posting.untilFailure (Posting.writeOne policy) p writes := by
  unfold unlessFailed
  split <;> rfl

theorem finish_unlessFailed_reading (p : Posting) (loans : List LoanId) :
    ((unlessFailed (.reading · loans) p).finish policy today : Act σ Posting) =
      (if p.outcome.isFailed then pure p
        else Posting.untilFailure (Posting.readLoan policy today) p loans) >>= fun p =>
          if p.outcome.isFailed || p.writes.isEmpty then pure p else p.flush policy := by
  unfold unlessFailed
  split
  · next hfailed => simp [finish_done, hfailed]
  · rfl

theorem flush_eq (p : Posting) :
    (p.flush policy : Act σ Posting) =
      retry policy p.stream (ArrearsAccess.writeBatch p.writes) >>= fun r =>
        (afterBatch p r).finish policy today := by
  unfold Posting.flush
  congr
  funext r
  rcases r with ⟨e | _, _, _⟩
  · by_cases hdata : e.class = .data
    · simp only [afterBatch, hdata, if_true, finish]
      rfl
    · simp only [afterBatch, hdata, if_false, finish_done]
  · rfl

/-- A step and then the others are all the steps. -/
theorem next_finish (stage : Stage) :
    (stage.next policy today >>= finish policy today : Act σ Posting) =
      stage.finish policy today := by
  cases stage with
  | done p => rfl
  | writing p writes =>
    cases writes with
    | nil => rfl
    | cons w writes =>
      change _ = Posting.untilFailure (Posting.writeOne policy) p (w :: writes)
      simp only [next, Posting.untilFailure, Posting.writeOne_eq, bind_map_left,
        Function.comp_apply, finish_unlessFailed_writing]
  | reading p loans =>
    cases loans with
    | nil =>
      simp only [next, finish_reading, Posting.untilFailure, pure_bind]
      split
      · rw [pure_bind, finish_done]
      · rw [bind_map_left, flush_eq policy today]
    | cons loan loans =>
      simp only [next, finish_reading, Posting.untilFailure, Posting.readLoan_eq, bind_map_left,
        bind_assoc, Function.comp_apply, finish_unlessFailed_reading]

/-- All steps of a sub-batch are its posting. -/
theorem post_eq_finish (b : SubBatch) (worker : Nat) (stream : JitterStream) :
    (b.post policy today worker stream : Act σ (PostOutcome × JitterStream)) =
      (fun p => (p.outcome, p.stream)) <$>
        (Stage.reading (.start b worker stream) b.loans).finish policy today := by
  simp only [SubBatch.post, finish_reading, map_eq_pure_bind, bind_assoc]
  congr
  funext p
  split <;> rfl

/-! ## Steps that are left -/

/-- A bound on the steps before the posting is done. -/
def stepsLeft : Stage → Nat
  | .reading p loans => 2 * loans.length + p.writes.length + 2
  | .writing _ writes => writes.length + 1
  | .done _ => 0

theorem stepsLeft_unlessFailed_le (rest : Posting → Stage) (p : Posting) :
    (unlessFailed rest p).stepsLeft ≤ (rest p).stepsLeft := by
  unfold unlessFailed
  split
  · exact Nat.zero_le _
  · exact Nat.le_refl _

theorem stepsLeft_afterBatch_le (p : Posting) (r : RetryResult Unit) :
    (afterBatch p r).stepsLeft ≤ p.writes.length + 1 := by
  unfold afterBatch
  split
  · exact Nat.zero_le _
  · split
    · exact Nat.le_refl _
    · exact Nat.zero_le _

/-- Each step brings the posting nearer to its end. -/
theorem stepsLeft_next {stage stage' : Stage} {s s' : σ}
    (h : (stage.next policy today : Act σ Stage).exec s = (.ok stage', s')) :
    stage'.stepsLeft ≤ stage.stepsLeft - 1 := by
  cases stage with
  | done p =>
    cases h
    exact Nat.zero_le _
  | writing p writes =>
    cases writes with
    | nil =>
      cases h
      exact Nat.zero_le _
    | cons w writes =>
      obtain ⟨r, -, rfl⟩ := Act.exists_of_exec_map_ok h
      exact stepsLeft_unlessFailed_le _ _
  | reading p loans =>
    cases loans with
    | nil =>
      simp only [next] at h
      split at h
      · cases h
        exact Nat.zero_le _
      · obtain ⟨r, -, rfl⟩ := Act.exists_of_exec_map_ok h
        exact Nat.le_trans (stepsLeft_afterBatch_le p r) (by simp [stepsLeft])
    | cons loan loans =>
      obtain ⟨r, -, rfl⟩ := Act.exists_of_exec_map_ok h
      have hreading := stepsLeft_unlessFailed_le (.reading · loans) (p.took loan r)
      have hwrites := p.length_writes_took loan r
      simp only [stepsLeft, List.length_cons, Function.comp_apply] at hreading ⊢
      omega

theorem eq_done_of_stepsLeft {stage : Stage} (h : stage.stepsLeft = 0) :
    ∃ p, stage = .done p := by
  cases stage with
  | done p => exact ⟨p, rfl⟩
  | reading p loans => simp [stepsLeft] at h
  | writing p writes => simp [stepsLeft] at h

end Stage

end LoanArrears
