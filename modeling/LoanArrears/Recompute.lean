-- SUMMARY: Computing the write for one loan, and recomputing a loan on the spot.
import LoanArrears.Store.Access

/-!
# Recomputing a loan

A loan that is not active loses its row. A loan whose product ages by the
planned schedule is replayed on it, if it has one; every other loan is aged off
its live schedule. A mode can force the live schedule.
-/

namespace LoanArrears

inductive AgingMode where
  /-- As the product says. -/
  | auto
  | forceLive
deriving DecidableEq

variable [BookAccess σ]

/-- Totals of the planned schedule; none for a loan without one. -/
def plannedArrears (terms : AgingTerms) (today : Date) : Act σ (Option Totals) := do
  if !terms.hasHistory then return none
  let schedule ← BookAccess.plannedInstallments terms.loan
  if schedule.isEmpty then return none
  validateSchedule terms.loan schedule
  let lifetime ← BookAccess.consumption terms.loan
  lifetime.validate
  let allocated ← allocate schedule lifetime.consumed
  let cutoff ← today.cutoff terms.grace
  let totals ← Totals.ofAllocation allocated cutoff
  return some totals

def liveArrears (terms : AgingTerms) (today : Date) : Act σ Totals := do
  let rows ← BookAccess.liveInstallments terms.loan
  let cutoff ← today.cutoff terms.grace
  Totals.ofLive rows cutoff

/-- The write that brings the row of a loan in line with the book. -/
def computeWrite (loan : LoanId) (today : Date) (mode : AgingMode) :
    Act σ ArrearsWrite := do
  let terms ← BookAccess.terms loan
  if !terms.status.isActive then return .delete loan
  let replayed ←
    if mode = .auto ∧ terms.replaysPlanned then plannedArrears terms today else pure none
  let totals ← match replayed with
    | some totals => pure totals
    | none => liveArrears terms today
  return .ofTotals loan totals

/-- Compute and do the write of a loan. -/
def recompute [ArrearsAccess σ] (loan : LoanId) (today : Date) (mode : AgingMode) :
    Act σ ArrearsWrite := do
  let w ← computeWrite loan today mode
  ArrearsAccess.write w
  return w

end LoanArrears
