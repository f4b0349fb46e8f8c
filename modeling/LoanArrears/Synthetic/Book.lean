-- SUMMARY: Filling a store with a synthetic loan book.
import LoanArrears.Synthetic.Loan
import LoanArrears.Store.Basic

/-!
# Synthetic books

A synthetic book has three products and so many loans, all drawn from one seed.
It is written in one transaction.
-/

namespace LoanArrears.Synthetic

variable [HasStore σ]

/-- What was written. -/
structure Made where
  loans : Nat
  rescheduled : Nat
  closed : Nat
deriving DecidableEq

def Made.zero : Made :=
  ⟨0, 0, 0⟩

def Made.count (m : Made) (r : LoanRows) : Made where
  loans := m.loans + 1
  rescheduled := m.rescheduled + r.isRescheduled.toNat
  closed := m.closed + r.isClosed.toNat

def insertMissing (p : ProductRow) : Act σ Unit := do
  if (← Store.product? p.id).isNone then Store.insertProduct p

def insertRows (r : LoanRows) : Act σ Unit := do
  Store.insertLoan r.loan
  r.live.forM Store.insertSchedule
  r.history.forM Store.insertHistory

/-- Draw and insert `count` loans from `id` on. -/
def insertLoans (today : Date) (g : Generator) (id : LoanId) (made : Made) : Nat → Act σ Made
  | 0 => return made
  | count + 1 => do
    let (r, g) ← (drawLoan id today).run g
    insertRows r
    insertLoans today g (id + 1) (made.count r) count

/-- The number of loans that ids can be given to; no loans for a count that is
    past them. -/
def numbered (count : Nat) : Nat :=
  if count < Bound.int64 then count else 0

def fill (count seed : Nat) (today : Date) : Act σ Made :=
  Store.atomically do
    products.forM insertMissing
    insertLoans today (.ofSeed seed) 1 .zero (numbered count)

end LoanArrears.Synthetic
