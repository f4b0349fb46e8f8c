-- SUMMARY: The life-cycle status of a loan and the codes under which it is stored.

/-!
# Loan status

Only the declared codes stand for a status; any other stored code is refused.
-/

namespace LoanArrears

inductive Status where
  | submittedAndPendingApproval
  | approved
  | active
  | withdrawnByClient
  | rejected
  | closedObligationsMet
  | closedWrittenOff
  | closedRescheduled
  | overpaid
deriving DecidableEq

namespace Status

def code : Status → Int
  | .submittedAndPendingApproval => 100
  | .approved => 200
  | .active => 300
  | .withdrawnByClient => 400
  | .rejected => 500
  | .closedObligationsMet => 600
  | .closedWrittenOff => 601
  | .closedRescheduled => 602
  | .overpaid => 700

def all : List Status :=
  [.submittedAndPendingApproval, .approved, .active, .withdrawnByClient, .rejected,
   .closedObligationsMet, .closedWrittenOff, .closedRescheduled, .overpaid]

def ofCode? (code : Int) : Option Status :=
  all.find? (·.code = code)

def isActive (s : Status) : Bool :=
  s = .active

def name : Status → String
  | .submittedAndPendingApproval => "submitted_and_pending_approval"
  | .approved => "approved"
  | .active => "active"
  | .withdrawnByClient => "withdrawn_by_client"
  | .rejected => "rejected"
  | .closedObligationsMet => "closed_obligations_met"
  | .closedWrittenOff => "closed_written_off"
  | .closedRescheduled => "closed_rescheduled"
  | .overpaid => "overpaid"

theorem ofCode?_code (s : Status) : ofCode? s.code = some s := by
  cases s <;> rfl

theorem code_of_ofCode? {code : Int} {s : Status} (h : ofCode? code = some s) : s.code = code := by
  simpa using List.find?_some h

end Status

end LoanArrears
