-- SUMMARY: The JSON form of business events.
import LoanArrears.Event
import LoanArrears.Json.Decode

/-!
# Events in JSON

The variant of an event stands in the field `type`, in snake case. Beside it are
the loan and the ids of what happened.
-/

namespace LoanArrears

/-- A name in snake case, as `LoanApproved` is `loan_approved`. -/
def Text.snakeCase (name : String) : String :=
  match name.toList with
  | [] => ""
  | first :: rest =>
    String.ofList (first.toLower :: rest.flatMap fun c =>
      if c.isUpper then ['_', c.toLower] else [c.toLower])

namespace EventKind

/-- The name of the variant, of kinds and of the events of a kind. -/
def variant : EventKind → String
  | .repaymentPosted => "RepaymentPosted"
  | .transactionAdjusted => "TransactionAdjusted"
  | .interestWaived => "InterestWaived"
  | .writeOffUndone => "WriteOffUndone"
  | .disbursed => "Disbursed"
  | .foreclosed => "Foreclosed"
  | .chargeAdded => "ChargeAdded"
  | .chargeWaived => "ChargeWaived"
  | .chargePaid => "ChargePaid"
  | .overdueChargeApplied => "OverdueChargeApplied"
  | .loanApproved => "LoanApproved"
  | .loanRejected => "LoanRejected"

def tag (k : EventKind) : String :=
  Text.snakeCase k.variant

/-- The tags are the names that messages have. -/
theorem tag_eq_name (k : EventKind) : k.tag = k.name := by
  cases k <;> rfl

def decoder : Decoder EventKind :=
  .choice (all.map fun k => (k.tag, k))

def toJson (k : EventKind) : Json :=
  .str k.tag

end EventKind

namespace LoanEvent

def loanField : Fields LoanId :=
  .required "loan_id" Decoder.int64

def transactionField : Fields Int :=
  .required "transaction_id" Decoder.int64

def chargeField : Fields Int :=
  .required "charge_id" Decoder.int64

/-- The fields beside the kind. -/
def fieldsOf : EventKind → Fields LoanEvent
  | .repaymentPosted => repaymentPosted <$> loanField <*> transactionField
  | .transactionAdjusted => transactionAdjusted <$> loanField <*> transactionField
  | .interestWaived => interestWaived <$> loanField <*> transactionField
  | .writeOffUndone => writeOffUndone <$> loanField <*> transactionField
  | .disbursed => disbursed <$> loanField <*> transactionField
  | .foreclosed => foreclosed <$> loanField <*> transactionField
  | .chargeAdded => chargeAdded <$> loanField <*> chargeField
  | .chargeWaived => chargeWaived <$> loanField <*> chargeField
  | .chargePaid => chargePaid <$> loanField <*> chargeField <*> transactionField
  | .overdueChargeApplied => overdueChargeApplied <$> loanField <*> chargeField
  | .loanApproved => loanApproved <$> loanField
  | .loanRejected => loanRejected <$> loanField

def decoder : Decoder LoanEvent :=
  .tagged "type" (EventKind.all.map fun k => (k.tag, fieldsOf k))

/-- The ids of what happened. -/
def details : LoanEvent → List (String × Json)
  | .repaymentPosted _ transaction | .transactionAdjusted _ transaction
  | .interestWaived _ transaction | .writeOffUndone _ transaction | .disbursed _ transaction
  | .foreclosed _ transaction => [("transaction_id", .int transaction)]
  | .chargeAdded _ charge | .chargeWaived _ charge | .overdueChargeApplied _ charge =>
    [("charge_id", .int charge)]
  | .chargePaid _ charge transaction =>
    [("charge_id", .int charge), ("transaction_id", .int transaction)]
  | .loanApproved _ | .loanRejected _ => []

def toJson (e : LoanEvent) : Json :=
  .obj (("type", e.kind.toJson) :: ("loan_id", .int e.loan) :: e.details)

end LoanEvent

end LoanArrears
