-- SUMMARY: The JSON forms of the rows that are put into a loan book.
import LoanArrears.Book.Row
import LoanArrears.Format.Amount

/-!
# Loan book rows in JSON

The status of a loan is written by its name. The grace of a loan may be missing
or `null`.
-/

namespace LoanArrears

namespace Status

def decoder : Decoder Status :=
  .choice (all.map fun s => (s.name, s))

def toJson (s : Status) : Json :=
  .str s.name

end Status

namespace ProductRow

def decoder : Decoder ProductRow :=
  .record <| mk <$> .required "id" Decoder.int64 <*> .required "name" Decoder.string
    <*> .required "arrears_based_on_original_schedule" Decoder.bool
    <*> .required "grace_on_arrears_ageing" Decoder.nat32

def toJson (r : ProductRow) : Json :=
  .obj [("id", .int r.id), ("name", r.name),
    ("arrears_based_on_original_schedule", r.byPlannedSchedule),
    ("grace_on_arrears_ageing", .nat r.grace)]

end ProductRow

namespace Lifetime

def decoder : Decoder Lifetime :=
  .record <| mk <$> .required "repaid" Amounts.decoder <*> .required "waived" Amounts.decoder
    <*> .required "written_off" Amounts.decoder

def toJson (t : Lifetime) : Json :=
  .obj [("repaid", Amounts.toJson t.repaid), ("waived", Amounts.toJson t.waived),
    ("written_off", Amounts.toJson t.writtenOff)]

end Lifetime

namespace LoanRow

def decoder : Decoder LoanRow :=
  .record <| mk <$> .required "id" Decoder.int64 <*> .required "product_id" Decoder.int64
    <*> .required "status" Status.decoder <*> .nullable "grace_on_arrears_ageing" Decoder.nat32
    <*> .required "totals" Lifetime.decoder

def toJson (r : LoanRow) : Json :=
  .obj [("id", .int r.id), ("product_id", .int r.product), ("status", r.status.toJson),
    ("grace_on_arrears_ageing", .opt .nat r.grace), ("totals", r.totals.toJson)]

end LoanRow

namespace LiveRow

def decoder : Decoder LiveRow :=
  .record <| mk <$> .required "loan_id" Decoder.int64 <*> .required "installment" Decoder.nat32
    <*> .required "due_date" Date.decoder <*> .required "due" Amounts.decoder
    <*> .required "completed" Amounts.decoder <*> .required "waived" Amounts.decoder
    <*> .required "written_off" Amounts.decoder <*> .required "fully_completed" Decoder.bool

def toJson (r : LiveRow) : Json :=
  .obj [("loan_id", .int r.loan), ("installment", .nat r.installment),
    ("due_date", r.dueDate.toJson), ("due", Amounts.toJson r.due),
    ("completed", Amounts.toJson r.completed), ("waived", Amounts.toJson r.waived),
    ("written_off", Amounts.toJson r.writtenOff), ("fully_completed", r.fullyCompleted)]

end LiveRow

namespace HistoryRow

def decoder : Decoder HistoryRow :=
  .record <| mk <$> .required "loan_id" Decoder.int64 <*> .required "version" Decoder.nat32
    <*> .required "installment" Decoder.nat32 <*> .required "due_date" Date.decoder
    <*> .required "due" Amounts.decoder

def toJson (r : HistoryRow) : Json :=
  .obj [("loan_id", .int r.loan), ("version", .nat r.version),
    ("installment", .nat r.installment), ("due_date", r.dueDate.toJson),
    ("due", Amounts.toJson r.due)]

end HistoryRow

end LoanArrears
