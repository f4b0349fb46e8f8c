-- SUMMARY: What a command prints at its end: the report and the counts of the book, as text or as JSON.
import LoanArrears.Format.Report

/-!
# Summaries

A summary is printed with a stamp, the name of the run and the time it took.
-/

namespace LoanArrears.CommandLine

structure Stamp where
  runId : String
  /-- In milliseconds. -/
  elapsed : Nat

structure Summary where
  report : RunReport
  activeLoans : Nat
  replayed : Nat
  /-- Rows of the arrears table. -/
  rows : Nat

namespace Summary

/-- Skipped loans that are printed. -/
def shownSkips : Nat := 10

def lines (s : Summary) (stamp : Stamp) : List String :=
  let r := s.report
  ["=== ARREARS RUN SUMMARY ===",
   "  run_id:          " ++ stamp.runId,
   "  business date:   " ++ r.today.toText,
   "  result:          " ++ (if r.succeeded then "ok" else "FAILED"),
   "  active loans:    " ++ toString s.activeLoans,
   "  rows cleared:    " ++ toString r.rowsCleared,
   "  bulk rows:       " ++ toString r.bulkRows,
   "  pages:           " ++ toString r.pages,
   "  sub-batches:     " ++ toString r.subBatches,
   "  loans streamed:  " ++ toString r.streamed,
   "  upserted:        " ++ toString r.upserted,
   "  deleted:         " ++ toString r.deleted,
   "  retries:         " ++ toString r.retries,
   "  skipped loans:   " ++ toString r.skipped.length,
   "  failed batches:  " ++ toString r.failedCount,
   "  events replayed: " ++ toString s.replayed,
   "  rows in table:   " ++ toString s.rows,
   "  elapsed:         " ++ toString stamp.elapsed ++ " ms"] ++
    (r.skipped.take shownSkips).map (fun skip =>
      "  skipped loan " ++ toString skip.loan ++ ": " ++ skip.reason.message) ++
    r.errors.map ("  FAILED: " ++ ·)

def toJson (s : Summary) (stamp : Stamp) : Json :=
  .obj [("report", .obj (("run_id", .str stamp.runId) :: s.report.toFields ++
      [("elapsed_ms", .nat stamp.elapsed)])),
    ("failed", .bool !s.report.succeeded), ("events_replayed", .nat s.replayed),
    ("aggregate_rows", .nat s.rows)]

end Summary

end LoanArrears.CommandLine
