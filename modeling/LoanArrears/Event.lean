-- SUMMARY: Business events on loans, their kinds, and the kinds after which a loan's arrears may have changed.
import LoanArrears.Error

/-!
# Business events

Changes of a loan are known by events only. Each names a loan and what happened
to it. `EventKind.triggers` lists the kinds that may change arrears; approving
and rejecting a loan are not among them.
-/

namespace LoanArrears

inductive EventKind where
  | repaymentPosted
  | transactionAdjusted
  | interestWaived
  | writeOffUndone
  | disbursed
  | foreclosed
  | chargeAdded
  | chargeWaived
  | chargePaid
  | overdueChargeApplied
  | loanApproved
  | loanRejected
deriving DecidableEq

namespace EventKind

def all : List EventKind :=
  [.repaymentPosted, .transactionAdjusted, .interestWaived, .writeOffUndone, .disbursed,
   .foreclosed, .chargeAdded, .chargeWaived, .chargePaid, .overdueChargeApplied, .loanApproved,
   .loanRejected]

def name : EventKind → String
  | .repaymentPosted => "repayment_posted"
  | .transactionAdjusted => "transaction_adjusted"
  | .interestWaived => "interest_waived"
  | .writeOffUndone => "write_off_undone"
  | .disbursed => "disbursed"
  | .foreclosed => "foreclosed"
  | .chargeAdded => "charge_added"
  | .chargeWaived => "charge_waived"
  | .chargePaid => "charge_paid"
  | .overdueChargeApplied => "overdue_charge_applied"
  | .loanApproved => "loan_approved"
  | .loanRejected => "loan_rejected"

def triggers : List EventKind :=
  [.repaymentPosted, .transactionAdjusted, .chargeAdded, .chargeWaived, .chargePaid,
   .interestWaived, .writeOffUndone, .disbursed, .foreclosed, .overdueChargeApplied]

def isTrigger (k : EventKind) : Bool :=
  k ∈ triggers

end EventKind

inductive LoanEvent where
  | repaymentPosted (loan : LoanId) (transaction : Int)
  | transactionAdjusted (loan : LoanId) (transaction : Int)
  | interestWaived (loan : LoanId) (transaction : Int)
  | writeOffUndone (loan : LoanId) (transaction : Int)
  | disbursed (loan : LoanId) (transaction : Int)
  | foreclosed (loan : LoanId) (transaction : Int)
  | chargeAdded (loan : LoanId) (charge : Int)
  | chargeWaived (loan : LoanId) (charge : Int)
  | chargePaid (loan : LoanId) (charge transaction : Int)
  | overdueChargeApplied (loan : LoanId) (charge : Int)
  | loanApproved (loan : LoanId)
  | loanRejected (loan : LoanId)
deriving DecidableEq

namespace LoanEvent

def kind : LoanEvent → EventKind
  | .repaymentPosted .. => .repaymentPosted
  | .transactionAdjusted .. => .transactionAdjusted
  | .interestWaived .. => .interestWaived
  | .writeOffUndone .. => .writeOffUndone
  | .disbursed .. => .disbursed
  | .foreclosed .. => .foreclosed
  | .chargeAdded .. => .chargeAdded
  | .chargeWaived .. => .chargeWaived
  | .chargePaid .. => .chargePaid
  | .overdueChargeApplied .. => .overdueChargeApplied
  | .loanApproved .. => .loanApproved
  | .loanRejected .. => .loanRejected

def loan : LoanEvent → LoanId
  | .repaymentPosted loan _ | .transactionAdjusted loan _ | .interestWaived loan _
  | .writeOffUndone loan _ | .disbursed loan _ | .foreclosed loan _ | .chargeAdded loan _
  | .chargeWaived loan _ | .chargePaid loan _ _ | .overdueChargeApplied loan _
  | .loanApproved loan | .loanRejected loan => loan

end LoanEvent

end LoanArrears
