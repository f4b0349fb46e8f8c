-- SUMMARY: The write that brings the arrears table in line with the totals of a loan.
import LoanArrears.Arrears.Totals

/-!
# Writes

A loan in arrears has one row in the arrears table, any other loan none. So the
write for a loan is an upsert of its row or a delete; a row of zeros is never
written. Doing a write twice is the same as doing it once.
-/

namespace LoanArrears

/-- The arrears position of one loan. -/
structure ArrearsPosition where
  loan : LoanId
  overdue : Amounts
  since : Date
deriving DecidableEq

def ArrearsPosition.total (a : ArrearsPosition) : Except Crash Decimal :=
  a.overdue.total

inductive ArrearsWrite where
  | upsert (a : ArrearsPosition)
  | delete (loan : LoanId)
deriving DecidableEq

namespace ArrearsWrite

def ofTotals (loan : LoanId) (t : Totals) : ArrearsWrite :=
  match t.since with
  | some since => if t.inArrears then .upsert ⟨loan, t.overdue, since⟩ else .delete loan
  | none => .delete loan

def loan : ArrearsWrite → LoanId
  | .upsert a => a.loan
  | .delete loan => loan

def isUpsert : ArrearsWrite → Bool
  | .upsert _ => true
  | .delete _ => false

/-- Without a date there is nothing to write but a delete. -/
theorem ofTotals_of_since_eq_none {loan : LoanId} {t : Totals} (h : t.since = none) :
    ofTotals loan t = .delete loan := by
  simp [ofTotals, h]

theorem loan_ofTotals (loan : LoanId) (t : Totals) : (ofTotals loan t).loan = loan := by
  unfold ofTotals
  split
  · split <;> rfl
  · rfl

end ArrearsWrite

def upsertCount (writes : List ArrearsWrite) : Nat :=
  writes.countP (·.isUpsert)

def deleteCount (writes : List ArrearsWrite) : Nat :=
  writes.length - upsertCount writes

end LoanArrears
