-- SUMMARY: The loan book: products, and loans with their live and earlier schedules, and the operations of the loan module on it.
import LoanArrears.Book.Row
import LoanArrears.Book.Stored
import LoanArrears.Book.Table

/-!
# The loan book

A `Book` keeps products and loans under their ids. The schedules of a loan
belong to the loan, in the order in which they were written. Amounts are kept
in cents; totals that repayments add to are kept as `Stored` numbers.

Rows are prepared first: their amounts are brought to cents, and one that does
not fit is an error whatever the book holds.
-/

namespace LoanArrears

/-! ## Contents -/

structure Product where
  name : String
  byPlannedSchedule : Bool
  grace : Nat
deriving DecidableEq

structure LiveEntry where
  installment : Nat
  dueDate : Date
  due : Buckets Cents
  completed : Buckets Stored
  waived : Buckets Cents
  writtenOff : Buckets Cents
  fullyCompleted : Bool
deriving DecidableEq

structure HistoryEntry where
  version : Nat
  installment : Nat
  dueDate : Date
  due : Buckets Cents
deriving DecidableEq

structure Loan where
  product : Int
  /-- The code of the status, declared or not. -/
  status : Int
  grace : Option Nat
  repaid : Buckets Stored
  waived : Buckets Cents
  writtenOff : Buckets Cents
  schedule : List LiveEntry
  history : List HistoryEntry
deriving DecidableEq

structure Book where
  products : Table Product
  loans : Table Loan
deriving DecidableEq

def Book.empty : Book :=
  ⟨.empty, .empty⟩

/-! ## Constraints -/

namespace Error

def violated (constraint : String) : Error :=
  .database (.failure DatabaseError.constraint (some (constraint ++ " constraint failed")))

def violatedAt (constraint detail : String) : Error :=
  .database (.failure DatabaseError.constraint
    (some (constraint ++ " constraint failed: " ++ detail)))

def notUnique (table : String) (columns : List String) : Error :=
  violatedAt "UNIQUE" (String.intercalate ", " (columns.map fun c => table ++ "." ++ c))

def unknownReference : Error :=
  violated "FOREIGN KEY"

end Error

/-! ## Preparing rows -/

def exactly (b : Buckets Cents) : Buckets Stored :=
  b.map .exact

def LoanRow.prepare (r : LoanRow) : Except Error Loan := do
  let repaid ← Amounts.toCents r.totals.repaid
  let waived ← Amounts.toCents r.totals.waived
  let writtenOff ← Amounts.toCents r.totals.writtenOff
  return { product := r.product, status := r.status.code, grace := r.grace
           repaid := exactly repaid, waived, writtenOff, schedule := [], history := [] }

def LiveRow.prepare (r : LiveRow) : Except Error LiveEntry := do
  let due ← Amounts.toCents r.due
  let completed ← Amounts.toCents r.completed
  let waived ← Amounts.toCents r.waived
  let writtenOff ← Amounts.toCents r.writtenOff
  return { installment := r.installment, dueDate := r.dueDate, due
           completed := exactly completed, waived, writtenOff
           fullyCompleted := r.fullyCompleted }

def HistoryRow.prepare (r : HistoryRow) : Except Error HistoryEntry := do
  let due ← Amounts.toCents r.due
  return { version := r.version, installment := r.installment, dueDate := r.dueDate, due }

namespace Book

/-! ## Inserting -/

def addProduct (b : Book) (r : ProductRow) : Except Error Book :=
  if b.products.contains r.id then .error (.notUnique "loan_product" ["id"])
  else .ok { b with products := b.products.put r.id ⟨r.name, r.byPlannedSchedule, r.grace⟩ }

def addLoan (b : Book) (id : LoanId) (loan : Loan) : Except Error Book :=
  if b.loans.contains id then .error (.notUnique "loan" ["id"])
  else if !b.products.contains loan.product then .error .unknownReference
  else .ok { b with loans := b.loans.put id loan }

def addLive (b : Book) (id : LoanId) (entry : LiveEntry) : Except Error Book :=
  match b.loans.find? id with
  | none => .error .unknownReference
  | some loan =>
    if loan.schedule.any (·.installment = entry.installment) then
      .error (.notUnique "loan_repayment_schedule" ["loan_id", "installment"])
    else .ok { b with loans := b.loans.put id { loan with schedule := loan.schedule ++ [entry] } }

def addHistory (b : Book) (id : LoanId) (entry : HistoryEntry) : Except Error Book :=
  match b.loans.find? id with
  | none => .error .unknownReference
  | some loan =>
    let known := loan.history.any fun e =>
      e.version = entry.version ∧ e.installment = entry.installment
    if known then
      .error (.notUnique "loan_repayment_schedule_history" ["loan_id", "version", "installment"])
    else .ok { b with loans := b.loans.put id { loan with history := loan.history ++ [entry] } }

/-! ## Repayments and status -/

/-- Add to stored totals. -/
def credit (totals : Buckets Stored) (amount : Buckets Cents) : Buckets Stored :=
  totals.zipWith (fun t a => (t.add (.exact a)).settle) amount

end Book

/-- Completed, waived and written off. -/
def LiveEntry.consumed (e : LiveEntry) : Buckets Stored :=
  (e.completed.zipWith Stored.add (exactly e.waived)).zipWith Stored.add (exactly e.writtenOff)

/-- Every bucket of the installment is covered. -/
def LiveEntry.isCovered (e : LiveEntry) : Bool :=
  (e.consumed.zipWith (fun c d => decide (d.val ≤ c.val)) e.due).toList.all id

/-- Add a repayment; an installment that is covered by it becomes completed. -/
def LiveEntry.repay (e : LiveEntry) (amount : Buckets Cents) : LiveEntry :=
  let e := { e with completed := Book.credit e.completed amount }
  { e with fullyCompleted := e.fullyCompleted || e.isCovered }

def Loan.repay (l : Loan) (installment : Nat) (amount : Buckets Cents) : Loan :=
  { l with
    schedule := l.schedule.map fun e => if e.installment = installment then e.repay amount else e
    repaid := Book.credit l.repaid amount }

namespace Book

/-- Post a repayment on an installment and on the lifetime totals of its loan. -/
def repay (b : Book) (id : LoanId) (installment : Nat) (amount : Buckets Cents) :
    Except Error Book :=
  match b.loans.find? id with
  | some loan =>
    if loan.schedule.any (·.installment = installment) then
      .ok { b with loans := b.loans.put id (loan.repay installment amount) }
    else .error (.invalidLoan id (.noLiveInstallment installment))
  | none => .error (.invalidLoan id (.noLiveInstallment installment))

def setStatus (b : Book) (id : LoanId) (status : Status) : Except Error Book :=
  match b.loans.find? id with
  | some loan => .ok { b with loans := b.loans.put id { loan with status := status.code } }
  | none => .error (.loanNotFound id)

/-- Set the code of the status, declared or not; nothing happens to a loan that
    is not there. -/
def setStatusCode (b : Book) (id : LoanId) (code : Int) : Book :=
  match b.loans.find? id with
  | some loan => { b with loans := b.loans.put id { loan with status := code } }
  | none => b

end Book

end LoanArrears
