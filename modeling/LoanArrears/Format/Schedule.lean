-- SUMMARY: The JSON forms of installments and of what a loan consumed.
import LoanArrears.Format.Amount
import LoanArrears.Schedule.Installment

/-!
# Schedules in JSON
-/

namespace LoanArrears

namespace PlannedInstallment

def decoder : Decoder PlannedInstallment :=
  .record <| mk <$> .required "installment" Decoder.nat32 <*> .required "due_date" Date.decoder
    <*> .required "due" Amounts.decoder

def toJson (i : PlannedInstallment) : Json :=
  .obj [("installment", .nat i.installment), ("due_date", i.dueDate.toJson),
    ("due", Amounts.toJson i.due)]

end PlannedInstallment

namespace LiveInstallment

def decoder : Decoder LiveInstallment :=
  .record <| mk <$> .required "installment" Decoder.nat32 <*> .required "due_date" Date.decoder
    <*> .required "due" Amounts.decoder <*> .required "consumed" Amounts.decoder
    <*> .required "completed" Decoder.bool

def toJson (i : LiveInstallment) : Json :=
  .obj [("installment", .nat i.installment), ("due_date", i.dueDate.toJson),
    ("due", Amounts.toJson i.due), ("consumed", Amounts.toJson i.consumed),
    ("completed", i.completed)]

end LiveInstallment

namespace Consumption

def decoder : Decoder Consumption :=
  .record <| mk <$> .required "loan_id" Decoder.int64 <*> .required "consumed" Amounts.decoder

def toJson (s : Consumption) : Json :=
  .obj [("loan_id", .int s.loan), ("consumed", Amounts.toJson s.consumed)]

end Consumption

end LoanArrears
