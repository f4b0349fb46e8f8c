-- SUMMARY: The JSON forms of skipped loans, failed sub-batches and job reports.
import LoanArrears.Format.Amount
import LoanArrears.Job.Report

/-!
# Job reports in JSON

Skipped loans are listed in the order of their ids.
-/

namespace LoanArrears

def SkippedLoan.toJson (s : SkippedLoan) : Json :=
  .obj [("loan_id", .int s.loan), ("reason", s.reason.message)]

def FailedBatch.toJson (f : FailedBatch) : Json :=
  .obj [("sub_batch", .nat f.subBatch), ("first_id", .opt .int f.firstId),
    ("last_id", .opt .int f.lastId), ("error", f.failure.message)]

namespace RunReport

def skippedById (r : RunReport) : List SkippedLoan :=
  r.skipped.mergeSort (·.loan ≤ ·.loan)

def toFields (r : RunReport) : List (String × Json) :=
  [("business_date", r.today.toJson), ("rows_cleared", .nat r.rowsCleared),
   ("bulk_rows", .nat r.bulkRows), ("pages", .nat r.pages), ("sub_batches", .nat r.subBatches),
   ("loans_streamed", .nat r.streamed), ("upserted", .nat r.upserted),
   ("deleted", .nat r.deleted), ("retries", .nat r.retries),
   ("skipped_loans", .list SkippedLoan.toJson r.skippedById),
   ("failed_batches", .list FailedBatch.toJson r.failed)]

end RunReport

end LoanArrears
