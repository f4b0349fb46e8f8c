-- SUMMARY: The steps of a posting on a store without faults, and how it ends from each of its stages: by its end, or with a crash.
import LoanArrears.Proofs.Job.Effects
import LoanArrears.Proofs.Job.Steps

/-!
# How a posting ends without faults

On a store without faults `Stage.Step` is all that a step can do, besides a crash
(`Stage.Crashes`). The table of the store has no part in it. So what a posting comes to and the
writes that it applies depend on its stage and the loan book only (`Stage.Ends`), and who does
the posting is in its outcome by name only (`Ends.byWorker`).
-/

namespace LoanArrears

/-! ## Workers -/

/-- A crash names the worker. -/
def PostFailure.byWorker (worker : Nat) : PostFailure → PostFailure
  | .workerCrashed _ => .workerCrashed worker
  | f => f

/-- The outcome of the same posting by another worker. -/
def PostOutcome.byWorker (worker : Nat) (o : PostOutcome) : PostOutcome :=
  { o with worker, failure := o.failure.map (·.byWorker worker) }

/-- The last worker is the one that is named. -/
theorem PostOutcome.byWorker_byWorker (worker worker' : Nat) (o : PostOutcome) :
    (o.byWorker worker').byWorker worker = o.byWorker worker := by
  have hfailure : PostFailure.byWorker worker ∘ PostFailure.byWorker worker' =
      PostFailure.byWorker worker := by
    funext f
    cases f <;> rfl
  simp only [byWorker, Option.map_map, hfailure]

def Posting.byWorker (worker : Nat) (stream : JitterStream) (p : Posting) : Posting :=
  { p with outcome := p.outcome.byWorker worker, stream }

/-! ## Steps -/

namespace Stage

/-- The steps of a posting without faults that do not crash, and the writes they apply. -/
inductive Step (b : Book) (today : Date) : Stage → Stage → List ArrearsWrite → Prop where
  | read {p : Posting} {loan : LoanId} {loans : List LoanId} {w : ArrearsWrite}
    (h : b.writeOf loan today .auto = .ok w) :
    Step b today (.reading p (loan :: loans)) (.reading (p.computed w) loans) []
  | skip {p : Posting} {loan : LoanId} {loans : List LoanId} {e : Error}
    (h : b.writeOf loan today .auto = .error (.error e)) :
    Step b today (.reading p (loan :: loans)) (.reading (p.skip loan e) loans) []
  | nothing {p : Posting} (h : p.writes = []) : Step b today (.reading p []) (.done p) []
  | batch {p : Posting} (hne : p.writes ≠ []) (h : ArrearsWrite.answerAll p.writes = .ok ()) :
    Step b today (.reading p []) (.done (p.landed p.writes)) p.writes
  | refused {p : Posting} {e : Error}
    (h : ArrearsWrite.answerAll p.writes = .error (.error e)) :
    Step b today (.reading p []) (.writing p p.writes) []
  | write {p : Posting} {w : ArrearsWrite} {writes : List ArrearsWrite} (h : w.answer = .ok ()) :
    Step b today (.writing p (w :: writes)) (.writing (p.landed [w]) writes) [w]
  | skipWrite {p : Posting} {w : ArrearsWrite} {writes : List ArrearsWrite} {e : Error}
    (h : w.answer = .error (.error e)) :
    Step b today (.writing p (w :: writes)) (.writing (p.skip w.loan e) writes) [w]
  | written (p : Posting) : Step b today (.writing p []) (.done p) []
  | stay (p : Posting) : Step b today (.done p) (.done p) []

/-- The next step crashes. -/
inductive Crashes (b : Book) (today : Date) : Stage → Crash → Prop where
  | read {p : Posting} {loan : LoanId} {loans : List LoanId} {c : Crash}
    (h : b.writeOf loan today .auto = .error (.crash c)) :
    Crashes b today (.reading p (loan :: loans)) c
  | batch {p : Posting} {c : Crash} (h : ArrearsWrite.answerAll p.writes = .error (.crash c)) :
    Crashes b today (.reading p []) c
  | write {p : Posting} {w : ArrearsWrite} {writes : List ArrearsWrite} {c : Crash}
    (h : w.answer = .error (.crash c)) : Crashes b today (.writing p (w :: writes)) c

/-- A posting that has steps to do did not fail. -/
def Unfailed : Stage → Prop
  | .reading p _ | .writing p _ => p.outcome.failure = none
  | .done _ => True

/-- Writes that are computed and not done. -/
def pending : Stage → List ArrearsWrite
  | .reading p _ => p.writes
  | .writing _ writes => writes
  | .done _ => []

/-- Loans that are still to be read. -/
def unread : Stage → List LoanId
  | .reading _ loans => loans
  | .writing _ _ | .done _ => []

/-- Loans whose rows the posting can still change. -/
def loans (stage : Stage) : List LoanId :=
  stage.pending.map (·.loan) ++ stage.unread

/-- The stage as it is if another worker does the posting. -/
def byWorker (worker : Nat) (stream : JitterStream) : Stage → Stage
  | .reading p loans => .reading (p.byWorker worker stream) loans
  | .writing p writes => .writing (p.byWorker worker stream) writes
  | .done p => .done (p.byWorker worker stream)

variable {b : Book} {today : Date} {stage stage' : Stage} {ws : List ArrearsWrite}

namespace Step

theorem unfailed (h : Step b today stage stage' ws) (hstage : stage.Unfailed) :
    stage'.Unfailed := by
  cases h <;> first | exact hstage | exact trivial

/-- What a step applies and what is then left to do are what was left to do before. -/
theorem pending_eq (h : Step b today stage stage' ws) :
    ws ++ (stage'.pending ++ b.writesOf today stage'.unread) =
      stage.pending ++ b.writesOf today stage.unread := by
  cases h with
  | read h => simp [pending, unread, Posting.computed, Book.writesOf_cons_ok h]
  | skip h => simp [pending, unread, Posting.skip, Book.writesOf_cons_error h]
  | nothing h => simp [pending, unread, h]
  | _ => simp [pending, unread, Book.writesOf]

theorem mem_loans (h : Step b today stage stage' ws) :
    (∀ w ∈ ws, w.loan ∈ stage.loans) ∧ stage'.loans ⊆ stage.loans := by
  cases h with
  | read h => simp [loans, pending, unread, Posting.computed, Book.loan_of_writeOf h]
  | batch hne h =>
    refine ⟨fun w hw => ?_, List.nil_subset _⟩
    exact List.mem_append_left _ (List.mem_map_of_mem hw)
  | _ => simp [loans, pending, unread, Posting.skip]

/-- Another worker would do the same step. -/
theorem byWorker (h : Step b today stage stage' ws) (worker : Nat) (stream : JitterStream) :
    Step b today (stage.byWorker worker stream) (stage'.byWorker worker stream) ws := by
  cases h with
  | read h => exact .read h
  | skip h => exact .skip h
  | nothing h => exact .nothing h
  | batch hne h => exact .batch hne h
  | refused h => exact .refused h
  | write h => exact .write h
  | skipWrite h => exact .skipWrite h
  | written p => exact .written _
  | stay p => exact .stay _

end Step

theorem Crashes.byWorker {c : Crash} (h : Crashes b today stage c) (worker : Nat)
    (stream : JitterStream) : Crashes b today (stage.byWorker worker stream) c := by
  cases h with
  | read h => exact .read h
  | batch h => exact .batch h
  | write h => exact .write h

/-! ## The store does these steps -/

variable {policy : RetryPolicy} {p : Posting}

theorem does_next_read (b : Book) (today : Date) (policy : RetryPolicy) (p : Posting)
    (loan : LoanId) (loans : List LoanId) :
    ((reading p (loan :: loans)).next policy today : Act Store Stage).Does b false
      ((oneAttempt p.stream (b.writeOf loan today .auto)).map
        (unlessFailed (.reading · loans) ∘ p.took loan)) [] := by
  have hread : (computeWrite loan today .auto : Act Store ArrearsWrite).Does b false
      (b.writeOf loan today .auto) [] := Store.does_computeWrite loan today .auto
  exact (hread.retry (b.failsOnly_writeOf loan today .auto) policy p.stream).map _

theorem does_next_write (b : Book) (today : Date) (policy : RetryPolicy) (p : Posting)
    (w : ArrearsWrite) (writes : List ArrearsWrite) :
    ((writing p (w :: writes)).next policy today : Act Store Stage).Does b false
      ((oneAttempt p.stream w.answer).map (unlessFailed (.writing · writes) ∘ p.wrote w)) [w] := by
  have hwrite : (ArrearsAccess.write w : Act Store Unit).Does b false w.answer [w] :=
    Store.does_write w
  exact (hwrite.retry w.failsOnly_answer policy p.stream).map _

theorem does_next_batch (b : Book) (today : Date) (policy : RetryPolicy)
    (h : p.outcome.failure = none) (hne : p.writes ≠ []) :
    ((reading p []).next policy today : Act Store Stage).Does b false
      ((oneAttempt p.stream (ArrearsWrite.answerAll p.writes)).map (afterBatch p))
      (if (ArrearsWrite.answerAll p.writes).isOk then p.writes else []) := by
  have hbatch := ((Store.does_writeBatch (b := b) p.writes).retry
    (ArrearsWrite.failsOnly_answerAll p.writes) policy p.stream).map (afterBatch p)
  have hcond : ¬(p.outcome.isFailed || p.writes.isEmpty) = true := by
    simp [PostOutcome.isFailed, h, hne]
  rw [next, if_neg hcond]
  exact hbatch

theorem unlessFailed_of_failure {p : Posting} (h : p.outcome.failure = none)
    (rest : Posting → Stage) : unlessFailed rest p = rest p := by
  rw [unlessFailed, PostOutcome.isFailed, h]
  rfl

/-- Bad data skip the loan of a read or a write. -/
theorem unlessFailed_refuse (h : p.outcome.failure = none) {e : Error} (hdata : e.class = .data)
    (loan : LoanId) (failure : PostFailure) (rest : Posting → Stage) :
    unlessFailed rest (p.refuse loan e failure) = rest (p.skip loan e) := by
  rw [Posting.refuse_data hdata]
  exact unlessFailed_of_failure (p := p.skip loan e) h rest

/-- The step is what the store does. -/
theorem Step.does (h : Step b today stage stage' ws) (hstage : stage.Unfailed) :
    (stage.next policy today : Act Store Stage).Does b false (.ok stage') ws := by
  cases h with
  | @read p loan loans w h =>
    have hnext := does_next_read b today policy p loan loans
    rw [h] at hnext
    exact unlessFailed_of_failure (p := p.computed w) hstage (.reading · loans) ▸ hnext
  | @skip p loan loans e h =>
    have hdata : e.class = .data := b.failsOnly_writeOf loan today .auto _ h
    have hnext := does_next_read b today policy p loan loans
    rw [h] at hnext
    exact unlessFailed_refuse hstage hdata loan (.reading loan e) (.reading · loans) ▸ hnext
  | @nothing p h =>
    simp only [next, h, List.isEmpty_nil, Bool.or_true, if_true]
    exact .pure _
  | @batch p hne h =>
    have hnext := does_next_batch b today policy hstage hne
    rw [h] at hnext
    exact hnext
  | @refused p e h =>
    have hdata : e.class = .data := ArrearsWrite.failsOnly_answerAll p.writes _ h
    have hne : p.writes ≠ [] := by
      intro hnil
      rw [hnil] at h
      cases h
    have hbatch : afterBatch p ⟨.error e, [], p.stream⟩ = .writing p p.writes := if_pos hdata
    have hnext := does_next_batch b today policy hstage hne
    rw [h] at hnext
    exact hbatch ▸ hnext
  | @write p w writes h =>
    have hnext := does_next_write b today policy p w writes
    rw [h] at hnext
    exact unlessFailed_of_failure (p := p.landed [w]) hstage (.writing · writes) ▸ hnext
  | @skipWrite p w writes e h =>
    have hdata : e.class = .data := w.failsOnly_answer _ h
    have hnext := does_next_write b today policy p w writes
    rw [h] at hnext
    exact unlessFailed_refuse hstage hdata w.loan (.writing w.loan e) (.writing · writes) ▸ hnext
  | written p => exact .pure _
  | stay p => exact .pure _

theorem Crashes.does {c : Crash} (h : Crashes b today stage c) (hstage : stage.Unfailed) :
    (stage.next policy today : Act Store Stage).Does b false (.error (.crash c)) [] := by
  cases h with
  | @read p loan loans c h =>
    have hnext := does_next_read b today policy p loan loans
    rw [h] at hnext
    exact hnext
  | @batch p c h =>
    have hne : p.writes ≠ [] := by
      intro hnil
      rw [hnil] at h
      cases h
    have hnext := does_next_batch b today policy hstage hne
    rw [h] at hnext
    exact hnext
  | @write p w writes c h =>
    have hnext := does_next_write b today policy p w writes
    rw [h] at hnext
    -- A refused write leaves the table as it is.
    intro t
    rw [hnext, ArrearsTable.applyAll_cons, ArrearsTable.apply_of_answer h]
    rfl

/-- A posting always has a step to do, or crashes with it. -/
theorem step_or_crash (b : Book) (today : Date) (stage : Stage) :
    (∃ stage' ws, Step b today stage stage' ws) ∨ ∃ c, Crashes b today stage c := by
  cases stage with
  | done p => exact .inl ⟨_, _, .stay p⟩
  | reading p loans =>
    cases loans with
    | cons loan loans =>
      rcases hwrite : b.writeOf loan today .auto with (e | c) | w
      · exact .inl ⟨_, _, .skip hwrite⟩
      · exact .inr ⟨c, .read hwrite⟩
      · exact .inl ⟨_, _, .read hwrite⟩
    | nil =>
      by_cases hempty : p.writes = []
      · exact .inl ⟨_, _, .nothing hempty⟩
      · rcases hanswer : ArrearsWrite.answerAll p.writes with (e | c) | u
        · exact .inl ⟨_, _, .refused hanswer⟩
        · exact .inr ⟨c, .batch hanswer⟩
        · exact .inl ⟨_, _, .batch hempty hanswer⟩
  | writing p writes =>
    cases writes with
    | nil => exact .inl ⟨_, _, .written p⟩
    | cons w writes =>
      rcases hanswer : w.answer with (e | c) | u
      · exact .inl ⟨_, _, .skipWrite hanswer⟩
      · exact .inr ⟨c, .write hanswer⟩
      · exact .inl ⟨_, _, .write hanswer⟩

/-! ## Ends -/

/-- What a posting comes to from a stage on, and the writes that it applies until then. -/
inductive Ends (b : Book) (today : Date) : Stage → Except Fault Posting → List ArrearsWrite → Prop
    where
  | done (p : Posting) : Ends b today (.done p) (.ok p) []
  | crash {stage : Stage} {c : Crash} (h : Crashes b today stage c) :
    Ends b today stage (.error (.crash c)) []
  | step {stage stage' : Stage} {r : Except Fault Posting} {ws ws' : List ArrearsWrite}
    (h : Step b today stage stage' ws) (rest : Ends b today stage' r ws') :
    Ends b today stage r (ws ++ ws')

theorem Step.stepsLeft_lt (h : Step b today stage stage' ws) (hstage : stage.stepsLeft ≠ 0) :
    stage'.stepsLeft < stage.stepsLeft := by
  cases h <;> simp [stepsLeft, Posting.computed, Posting.skip] at hstage ⊢
  omega

/-- Every posting has an end. -/
theorem exists_ends (b : Book) (today : Date) (stage : Stage) :
    ∃ r ws, Ends b today stage r ws := by
  -- Every step leaves fewer of them to do, until the stage is the last one.
  induction hleft : stage.stepsLeft using Nat.strongRecOn generalizing stage with
  | ind left ih =>
    by_cases hdone : stage.stepsLeft = 0
    · obtain ⟨p, rfl⟩ := eq_done_of_stepsLeft hdone
      exact ⟨_, _, .done p⟩
    rcases step_or_crash b today stage with ⟨stage', ws, hstep⟩ | ⟨c, hcrash⟩
    · obtain ⟨r, ws', hends⟩ := ih _ (hleft ▸ hstep.stepsLeft_lt hdone) stage' rfl
      exact ⟨r, ws ++ ws', .step hstep hends⟩
    · exact ⟨_, _, .crash hcrash⟩

namespace Ends

variable {r : Except Fault Posting}

/-- The store gets a posting to its end. -/
theorem does (h : Ends b today stage r ws) (hstage : stage.Unfailed) :
    (stage.finish policy today : Act Store Posting).Does b false r ws := by
  induction h with
  | done p => exact .pure p
  | crash h =>
    rw [← next_finish]
    exact .bind_error (h.does hstage)
  | step h rest ih =>
    rw [← next_finish]
    exact .bind_ok (h.does hstage) (ih (h.unfailed hstage))

/-- Another worker comes to the same end. -/
theorem byWorker (h : Ends b today stage r ws) (worker : Nat) (stream : JitterStream) :
    Ends b today (stage.byWorker worker stream) (r.map (·.byWorker worker stream)) ws := by
  induction h with
  | done p => exact .done _
  | crash h => exact .crash (h.byWorker worker stream)
  | step h rest ih => exact .step (h.byWorker worker stream) ih

theorem mem_loans (h : Ends b today stage r ws) : ∀ w ∈ ws, w.loan ∈ stage.loans := by
  induction h with
  | done p => exact fun w hw => absurd hw List.not_mem_nil
  | crash h => exact fun w hw => absurd hw List.not_mem_nil
  | step h rest ih =>
    intro w hw
    rcases List.mem_append.1 hw with hw | hw
    · exact h.mem_loans.1 w hw
    · exact h.mem_loans.2 (ih w hw)

/-- A posting that comes to its end applies all writes that were left to do. -/
theorem writes_eq (h : Ends b today stage r ws) {p : Posting} (hr : r = .ok p) :
    ws = stage.pending ++ b.writesOf today stage.unread := by
  induction h with
  | done p => rfl
  | crash h => cases hr
  | step h rest ih => rw [ih hr, h.pending_eq]

end Ends

end Stage

end LoanArrears
