-- SUMMARY: Posting a sub-batch: computing the writes of its loans, writing them at once or else one by one, and the account of it.
import LoanArrears.Job.SubBatch
import LoanArrears.Recompute
import LoanArrears.Retry

/-!
# Posting a sub-batch

The writes of all loans of a sub-batch are computed first, and then done in one
transaction. Each step is retried while its error is transient. A loan whose
data are bad is skipped. A batch that is refused for bad data is written one
loan at a time, so that only the bad ones are left out. Any other error ends the
posting.

Posting has no errors of its own: a `PostOutcome` accounts for every loan.
-/

namespace LoanArrears

/-! ## Outcomes -/

/-- A loan that was left out, and why. -/
structure SkippedLoan where
  loan : LoanId
  reason : Error

/-- What ended a posting. -/
inductive PostFailure where
  | reading (loan : LoanId) (e : Error)
  | batch (e : Error)
  | writing (loan : LoanId) (e : Error)
  | workerCrashed (worker : Nat)

def PostFailure.message : PostFailure → String
  | .reading loan e => "reading loan " ++ toString loan ++ ": " ++ e.message
  | .batch e => e.message
  | .writing loan e => "writing loan " ++ toString loan ++ ": " ++ e.message
  | .workerCrashed worker => "worker " ++ toString worker ++ " panicked"

structure PostOutcome where
  subBatch : Nat
  worker : Nat
  firstId : Option LoanId
  lastId : Option LoanId
  /-- Loans of the sub-batch. -/
  loans : Nat
  /-- Writes that took effect. -/
  upserted : Nat
  deleted : Nat
  skipped : List SkippedLoan
  retries : Nat
  failure : Option PostFailure

namespace PostOutcome

/-- The outcome while nothing has happened. -/
def ofBatch (b : SubBatch) (worker : Nat) : PostOutcome where
  subBatch := b.index
  worker := worker
  firstId := b.first?
  lastId := b.last?
  loans := b.loans.length
  upserted := 0
  deleted := 0
  skipped := []
  retries := 0
  failure := none

def isFailed (o : PostOutcome) : Bool :=
  o.failure.isSome

end PostOutcome

/-! ## Steps -/

/-- A posting under way. -/
structure Posting where
  outcome : PostOutcome
  /-- The stream that delays are drawn from. -/
  stream : JitterStream
  /-- The writes computed so far. -/
  writes : List ArrearsWrite

namespace Posting

def start (b : SubBatch) (worker : Nat) (stream : JitterStream) : Posting :=
  ⟨.ofBatch b worker, stream, []⟩

/-- Take over the retries of a step and its stream. -/
def note (p : Posting) (r : RetryResult α) : Posting :=
  { p with
    outcome := { p.outcome with retries := p.outcome.retries + r.retries }
    stream := r.stream }

def computed (p : Posting) (w : ArrearsWrite) : Posting :=
  { p with writes := p.writes ++ [w] }

/-- Count writes that took effect. -/
def landed (p : Posting) (writes : List ArrearsWrite) : Posting :=
  { p with
    outcome := { p.outcome with
      upserted := p.outcome.upserted + upsertCount writes
      deleted := p.outcome.deleted + deleteCount writes } }

def skip (p : Posting) (loan : LoanId) (reason : Error) : Posting :=
  { p with outcome := { p.outcome with skipped := p.outcome.skipped ++ [⟨loan, reason⟩] } }

def fail (p : Posting) (f : PostFailure) : Posting :=
  { p with outcome := { p.outcome with failure := some f } }

/-- Skip a loan for bad data, or fail for any other error. -/
def refuse (p : Posting) (loan : LoanId) (e : Error) (failure : PostFailure) : Posting :=
  if e.class = .data then p.skip loan e else p.fail failure

/-- Do a step for each item until one fails. -/
def untilFailure (step : Posting → α → Act σ Posting) : Posting → List α → Act σ Posting
  | p, [] => return p
  | p, a :: rest => do
    let p ← step p a
    if p.outcome.isFailed then return p else untilFailure step p rest

variable [BookAccess σ] [ArrearsAccess σ]

/-- Compute the write of a loan. -/
def readLoan (policy : RetryPolicy) (today : Date) (p : Posting) (loan : LoanId) :
    Act σ Posting := do
  let r ← retry policy p.stream (computeWrite loan today .auto)
  let p := p.note r
  match r.outcome with
  | .ok w => return p.computed w
  | .error e => return p.refuse loan e (.reading loan e)

/-- Do the write of one loan. -/
def writeOne (policy : RetryPolicy) (p : Posting) (w : ArrearsWrite) : Act σ Posting := do
  let r ← retry policy p.stream (ArrearsAccess.write w)
  let p := p.note r
  match r.outcome with
  | .ok _ => return p.landed [w]
  | .error e => return p.refuse w.loan e (.writing w.loan e)

/-- Do all writes at once, or one by one if their data are refused. -/
def flush (policy : RetryPolicy) (p : Posting) : Act σ Posting := do
  let r ← retry policy p.stream (ArrearsAccess.writeBatch p.writes)
  let p := p.note r
  match r.outcome with
  | .ok _ => return p.landed p.writes
  | .error e =>
    if e.class = .data then untilFailure (writeOne policy) p p.writes
    else return p.fail (.batch e)

end Posting

/-- Post a sub-batch; answers the outcome and the stream behind it. -/
def SubBatch.post [BookAccess σ] [ArrearsAccess σ] (b : SubBatch) (policy : RetryPolicy)
    (today : Date) (worker : Nat) (stream : JitterStream) :
    Act σ (PostOutcome × JitterStream) := do
  let p ← Posting.untilFailure (Posting.readLoan policy today) (.start b worker stream) b.loans
  let p ← if p.outcome.isFailed || p.writes.isEmpty then pure p else p.flush policy
  return (p.outcome, p.stream)

end LoanArrears
