-- SUMMARY: The rows that are put into a loan book, and those that are read from it.
import LoanArrears.Schedule.Installment
import LoanArrears.Status

/-!
# Rows

Products, loans, live installments and snapshots of earlier schedules are put
into the book as rows. `AgingTerms` is what a loan is aged by besides its
schedules, and `AgingRow` is a row of the arrears table.
-/

namespace LoanArrears

structure ProductRow where
  id : Int
  name : String
  /-- Loans are aged by the schedule as first disbursed. -/
  byPlannedSchedule : Bool
  grace : Nat
deriving DecidableEq

/-- Lifetime totals of a loan. -/
structure Lifetime where
  repaid : Amounts
  waived : Amounts
  writtenOff : Amounts
deriving DecidableEq

def Lifetime.zero : Lifetime :=
  ⟨Amounts.zero, Amounts.zero, Amounts.zero⟩

structure LoanRow where
  id : LoanId
  product : Int
  status : Status
  /-- Goes before the grace of the product. -/
  grace : Option Nat
  totals : Lifetime
deriving DecidableEq

/-- A live installment. -/
structure LiveRow where
  loan : LoanId
  installment : Nat
  dueDate : Date
  due : Amounts
  completed : Amounts
  waived : Amounts
  writtenOff : Amounts
  fullyCompleted : Bool
deriving DecidableEq

/-- An installment of which nothing was consumed yet. -/
def LiveRow.unpaid (loan : LoanId) (installment : Nat) (dueDate : Date) (due : Amounts) :
    LiveRow :=
  { loan, installment, dueDate, due
    completed := Amounts.zero
    waived := Amounts.zero
    writtenOff := Amounts.zero
    fullyCompleted := due.isZero }

/-- An installment of an earlier schedule. The lowest version is the schedule as
    first disbursed. -/
structure HistoryRow where
  loan : LoanId
  version : Nat
  installment : Nat
  dueDate : Date
  due : Amounts
deriving DecidableEq

structure AgingTerms where
  loan : LoanId
  status : Status
  product : Int
  byPlannedSchedule : Bool
  /-- The grace of the loan, or else of the product. -/
  grace : Nat
  hasHistory : Bool
deriving DecidableEq

/-- The loan is aged by its planned schedule. -/
def AgingTerms.replaysPlanned (c : AgingTerms) : Bool :=
  c.byPlannedSchedule && c.hasHistory

structure AgingRow where
  loan : LoanId
  overdue : Amounts
  total : Decimal
  since : Date
deriving DecidableEq

end LoanArrears
