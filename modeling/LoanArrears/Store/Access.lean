-- SUMMARY: What the engine asks of a store: reading the loan book, writing the arrears table, and transactions.
import LoanArrears.Act
import LoanArrears.Arrears.Write
import LoanArrears.Book.Row

/-!
# Access to a store

The engine knows a store by a few classes only. `BookAccess` reads loans and their
schedules; `ArrearsAccess` changes the arrears table. `Transactions` runs an
operation so that it succeeds or leaves the tables as they were, and
`Connections` opens one more way to the same tables.
-/

namespace LoanArrears

class BookAccess (σ : Type) where
  /-- Candidate loans behind an id, in ascending order, at most a page of them. -/
  candidates : (after : LoanId) → (pageSize : Nat) → (today : Date) → Act σ (List LoanId)
  /-- The schedule as first disbursed; empty if there was never another one. -/
  plannedInstallments : LoanId → Act σ (List PlannedInstallment)
  liveInstallments : LoanId → Act σ (List LiveInstallment)
  consumption : LoanId → Act σ Consumption
  terms : LoanId → Act σ AgingTerms

class ArrearsAccess (σ : Type) where
  /-- Remove every row; answers how many there were. -/
  reset : Act σ Nat
  /-- Add the rows of all loans aged off their live schedules; answers how many. -/
  bulkInsert : (today : Date) → Act σ Nat
  /-- All of the writes or none. -/
  writeBatch : List ArrearsWrite → Act σ Unit
  /-- One write, within the transaction of the caller if there is one. -/
  write : ArrearsWrite → Act σ Unit

class Transactions (σ : Type) where
  atomically : Act σ α → Act σ α

class Connections (σ : Type) where
  connect : Act σ Unit

end LoanArrears
