-- SUMMARY: Installments of the planned and of the live schedule, lifetime totals of a loan, and when they can be used.
import LoanArrears.Error

/-!
# Schedules

The planned schedule is a list of dues as first disbursed. The live schedule
also carries what was consumed of each due. A `Consumption` has what a loan
consumed over its lifetime.

`validateSchedule` refuses what cannot be poured over: a schedule without
installments, out of date order or with negative dues.
-/

namespace LoanArrears

structure PlannedInstallment where
  installment : Nat
  dueDate : Date
  due : Amounts
deriving DecidableEq

structure LiveInstallment where
  installment : Nat
  dueDate : Date
  due : Amounts
  /-- Completed, waived and written off. -/
  consumed : Amounts
  completed : Bool
deriving DecidableEq

structure Consumption where
  loan : LoanId
  consumed : Amounts
deriving DecidableEq

def Consumption.validate (s : Consumption) : Except Error Unit :=
  if s.consumed.anyNegative then .error (.invalidLoan s.loan (.negativeTotals s.consumed))
  else .ok ()

/-- The first two neighbours of which the second is due earlier. -/
def outOfOrder? : List PlannedInstallment → Option (PlannedInstallment × PlannedInstallment)
  | a :: b :: rest => if b.dueDate.before a.dueDate then some (a, b) else outOfOrder? (b :: rest)
  | _ => none

def validateSchedule (loan : LoanId) (schedule : List PlannedInstallment) :
    Except Error Unit :=
  if schedule.isEmpty then .error (.invalidLoan loan .noInstallments)
  else match outOfOrder? schedule with
    | some (a, b) =>
      .error (.invalidLoan loan (.outOfOrder b.installment b.dueDate a.installment a.dueDate))
    | none =>
      match schedule.find? (·.due.anyNegative) with
      | some bad => .error (.invalidLoan loan (.negativeDue bad.installment))
      | none => .ok ()

end LoanArrears
