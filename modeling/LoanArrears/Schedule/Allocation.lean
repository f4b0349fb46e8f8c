-- SUMMARY: Pouring lifetime totals over the installments of a schedule, oldest first.
import LoanArrears.Schedule.Installment

/-!
# Allocation

What a loan has consumed is poured over its installments from the first one on,
each bucket from its own pool. An installment takes its due as long as the pool
holds it; the first one that is short takes the rest of the pool.
-/

namespace LoanArrears

/-- One bucket of one installment, and what it leaves in the pool. -/
structure Poured where
  paid : Decimal
  left : Decimal
  covered : Bool

def pour (due pool : Decimal) : Except Crash Poured :=
  if due.le pool then do
    return { paid := due, left := ← pool.sub due, covered := true }
  else
    return { paid := pool, left := Decimal.zero, covered := false }

structure Coverage where
  installment : Nat
  dueDate : Date
  due : Amounts
  paid : Amounts
  complete : Bool
deriving DecidableEq

def Coverage.outstanding (a : Coverage) : Except Crash Amounts :=
  Amounts.monus a.due a.paid

/-- Pour the pool over the installments in their order. -/
def allocate : List PlannedInstallment → Amounts → Except Crash (List Coverage)
  | [], _ => .ok []
  | i :: rest, pool => do
    let poured ← i.due.zipWithM pour pool
    let allocated : Coverage := {
      installment := i.installment
      dueDate := i.dueDate
      due := i.due
      paid := poured.map (·.paid)
      complete := (poured.map (·.covered)).toList.all id }
    let others ← allocate rest (poured.map (·.left))
    return allocated :: others

end LoanArrears
