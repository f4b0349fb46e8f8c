-- SUMMARY: The report of a full recompute, and adding the outcomes of sub-batches to it.
import LoanArrears.Job.Posting

/-!
# Job reports

A report adds up the outcomes of all sub-batches, in the order in which they
come. The job succeeded if none of them failed.
-/

namespace LoanArrears

/-- A sub-batch that was not written, or not as a whole. -/
structure FailedBatch where
  subBatch : Nat
  firstId : Option LoanId
  lastId : Option LoanId
  failure : PostFailure

def FailedBatch.describeId : Option LoanId → String
  | some id => "Some(" ++ toString id ++ ")"
  | none => "None"

def FailedBatch.message (f : FailedBatch) : String :=
  "sub-batch " ++ toString f.subBatch ++ " (" ++ describeId f.firstId ++ "..=" ++
    describeId f.lastId ++ "): " ++ f.failure.message

structure RunReport where
  today : Date
  rowsCleared : Nat
  bulkRows : Nat
  pages : Nat
  subBatches : Nat
  /-- Loans of all sub-batches. -/
  streamed : Nat
  upserted : Nat
  deleted : Nat
  retries : Nat
  skipped : List SkippedLoan
  failed : List FailedBatch

namespace RunReport

def new (today : Date) : RunReport where
  today := today
  rowsCleared := 0
  bulkRows := 0
  pages := 0
  subBatches := 0
  streamed := 0
  upserted := 0
  deleted := 0
  retries := 0
  skipped := []
  failed := []

def succeeded (r : RunReport) : Bool :=
  r.failed.isEmpty

def failedCount (r : RunReport) : Nat :=
  r.failed.length

/-- The messages of the failed sub-batches. -/
def errors (r : RunReport) : List String :=
  r.failed.map (·.message)

def addOutcome (r : RunReport) (o : PostOutcome) : RunReport :=
  { r with
    streamed := r.streamed + o.loans
    upserted := r.upserted + o.upserted
    deleted := r.deleted + o.deleted
    retries := r.retries + o.retries
    skipped := r.skipped ++ o.skipped
    failed := r.failed ++
      (o.failure.map fun f => ⟨o.subBatch, o.firstId, o.lastId, f⟩).toList }

/-- Count a page that was cut into sub-batches. -/
def countPage (r : RunReport) (subBatches : Nat) : RunReport :=
  { r with pages := r.pages + 1, subBatches := r.subBatches + subBatches }

end RunReport

end LoanArrears
