-- SUMMARY: The JSON forms of arrears positions, of writes and of the rows of the arrears table.
import LoanArrears.Arrears.Write
import LoanArrears.Book.Row
import LoanArrears.Format.Amount

/-!
# Arrears in JSON

A write carries its kind in the field `op`; an upsert has the fields of its
position beside it.
-/

namespace LoanArrears

namespace ArrearsPosition

def fields : Fields ArrearsPosition :=
  mk <$> .required "loan_id" Decoder.int64 <*> .required "overdue" Amounts.decoder
    <*> .required "overdue_since_date" Date.decoder

def decoder : Decoder ArrearsPosition :=
  .record fields

def toFields (a : ArrearsPosition) : List (String × Json) :=
  [("loan_id", .int a.loan), ("overdue", Amounts.toJson a.overdue),
   ("overdue_since_date", a.since.toJson)]

def toJson (a : ArrearsPosition) : Json :=
  .obj a.toFields

end ArrearsPosition

namespace ArrearsWrite

def variants : List (String × Fields ArrearsWrite) :=
  [("upsert", upsert <$> ArrearsPosition.fields),
   ("delete", delete <$> .required "loan_id" Decoder.int64)]

def decoder : Decoder ArrearsWrite :=
  .tagged "op" variants

def toJson : ArrearsWrite → Json
  | .upsert a => .obj (("op", "upsert") :: a.toFields)
  | .delete loan => .obj [("op", "delete"), ("loan_id", .int loan)]

end ArrearsWrite

namespace AgingRow

def decoder : Decoder AgingRow :=
  .record <|
    (fun loan principal interest fee penalty total since =>
      ⟨loan, ⟨principal, interest, fee, penalty⟩, total, since⟩)
    <$> .required "loan_id" Decoder.int64 <*> .required "principal_overdue" Decimal.decoder
    <*> .required "interest_overdue" Decimal.decoder <*> .required "fee_overdue" Decimal.decoder
    <*> .required "penalty_overdue" Decimal.decoder <*> .required "total_overdue" Decimal.decoder
    <*> .required "overdue_since_date" Date.decoder

def toJson (r : AgingRow) : Json :=
  .obj [("loan_id", .int r.loan), ("principal_overdue", r.overdue.principal.toJson),
    ("interest_overdue", r.overdue.interest.toJson), ("fee_overdue", r.overdue.fee.toJson),
    ("penalty_overdue", r.overdue.penalty.toJson), ("total_overdue", r.total.toJson),
    ("overdue_since_date", r.since.toJson)]

end AgingRow

end LoanArrears
