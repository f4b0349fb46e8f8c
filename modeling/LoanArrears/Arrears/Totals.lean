-- SUMMARY: The overdue position of a loan, read off an allocation or off the live schedule.
import LoanArrears.Calendar.Cutoff
import LoanArrears.Schedule.Allocation

/-!
# Overdue totals

`Totals` adds up what is outstanding on the installments due before a cutoff.
Its date is the oldest due date among those with principal outstanding. A loan
is in arrears while principal is overdue.
-/

namespace LoanArrears

structure Totals where
  overdue : Amounts
  since : Option Date
deriving DecidableEq

namespace Totals

def zero : Totals :=
  ⟨Amounts.zero, none⟩

def total (t : Totals) : Except Crash Decimal :=
  t.overdue.total

def inArrears (t : Totals) : Bool :=
  t.overdue.principal.isPositive && t.since.isSome

/-- Add what is outstanding on an installment. -/
def addOutstanding (t : Totals) (due : Date) (outstanding : Amounts) : Except Crash Totals := do
  let overdue ← Amounts.add t.overdue outstanding
  let since :=
    if outstanding.principal.isPositive then some ((t.since.map (·.min due)).getD due) else t.since
  return ⟨overdue, since⟩

def ofAllocation (allocated : List Coverage) (cutoff : Date) : Except Crash Totals :=
  (allocated.filter fun a => a.dueDate.before cutoff && !a.complete).foldlM
    (fun t a => do t.addOutstanding a.dueDate (← a.outstanding)) zero

def ofLive (rows : List LiveInstallment) (cutoff : Date) : Except Crash Totals :=
  (rows.filter fun r => r.dueDate.before cutoff && !r.completed).foldlM
    (fun t r => do t.addOutstanding r.dueDate (← Amounts.monus r.due r.consumed)) zero

end Totals

/-- Installments due before this day are overdue. -/
def Date.cutoff (today : Date) (grace : Nat) : Except Crash Date :=
  Option.orCrash .dateBeforeRange (today.cutoff? grace)

end LoanArrears
