-- SUMMARY: What the engine reads from the loan book: schedules, lifetime totals, the terms of a loan, and candidate loans.
import LoanArrears.Book.Basic
import LoanArrears.Calendar.Cutoff

/-!
# Reading the loan book

Schedules are read in the order of their due dates as texts, and of the
installment numbers where those agree. The planned schedule of a loan is the
lowest version of its history.

Candidates are the active loans that age by their planned schedule and have an
installment of it due before the cutoff.
-/

namespace LoanArrears

/-- In the order of due dates as texts, then of numbers. -/
def byDueText (dueDate : α → Date) (installment : α → Nat) (entries : List α) : List α :=
  entries.mergeSort fun a b =>
    let (s, t) := ((dueDate a).toText, (dueDate b).toText)
    s < t || (s == t && installment a ≤ installment b)

namespace Loan

/-- The lowest version in the history. -/
def firstVersion? (l : Loan) : Option Nat :=
  (l.history.map (·.version)).min?

def plannedEntries (l : Loan) : List HistoryEntry :=
  l.history.filter fun e => some e.version = l.firstVersion?

def graceOf (l : Loan) (p : Product) : Nat :=
  l.grace.getD p.grace

def isActive (l : Loan) : Bool :=
  l.status = Status.active.code

/-- What the loan consumed over its lifetime. -/
def consumed (l : Loan) : Buckets Stored :=
  let repaidAndWaived := l.repaid.zipWith Stored.add (exactly l.waived)
  let all := repaidAndWaived.zipWith Stored.add (exactly l.writtenOff)
  { all with principal := l.repaid.principal.add (.exact l.writtenOff.principal) }

end Loan

/-! ## Columns -/

/-- Names of the columns that repayments, waivers and write-offs are read from,
    by bucket; the texts of sums are part of messages. -/
def bucketNames : Buckets String :=
  ⟨"principal", "interest", "fee_charges", "penalty_charges"⟩

def sumText (bucket : String) (parts : List String) : String :=
  String.intercalate " + " (parts.map fun p => bucket ++ "_" ++ p)

def liveColumns : Buckets String :=
  bucketNames.map (sumText · ["completed", "waived", "writtenoff"])

def consumptionColumns : Buckets String :=
  { bucketNames.map (sumText · ["repaid", "waived", "writtenoff"]) with
    principal := sumText bucketNames.principal ["repaid", "writtenoff"] }

def LiveEntry.read (e : LiveEntry) : Except Error LiveInstallment := do
  let consumed ← e.consumed.readStored 6 liveColumns
  return { installment := e.installment, dueDate := e.dueDate, due := Amounts.ofCents e.due
           consumed := Amounts.ofCents consumed, completed := e.fullyCompleted }

def HistoryEntry.read (e : HistoryEntry) : PlannedInstallment where
  installment := e.installment
  dueDate := e.dueDate
  due := Amounts.ofCents e.due

/-! ## Queries -/

namespace Book

def product? (b : Book) (id : Int) : Option ProductRow :=
  (b.products.find? id).map fun p => ⟨id, p.name, p.byPlannedSchedule, p.grace⟩

/-- The planned schedule; empty for a loan that never had another one. -/
def plannedInstallments (b : Book) (id : LoanId) : List PlannedInstallment :=
  match b.loans.find? id with
  | some loan =>
    (byDueText (·.dueDate) (·.installment) loan.plannedEntries).map HistoryEntry.read
  | none => []

def liveInstallments (b : Book) (id : LoanId) : Except Error (List LiveInstallment) :=
  match b.loans.find? id with
  | some loan => (byDueText (·.dueDate) (·.installment) loan.schedule).mapM LiveEntry.read
  | none => .ok []

def consumption (b : Book) (id : LoanId) : Except Error Consumption :=
  match b.loans.find? id with
  | some loan => do
    let consumed ← loan.consumed.readStored 0 consumptionColumns
    return ⟨id, Amounts.ofCents consumed⟩
  | none => .error (.loanNotFound id)

/-- A loan with its product. -/
def loanWithProduct? (b : Book) (id : LoanId) : Option (Loan × Product) := do
  let loan ← b.loans.find? id
  let product ← b.products.find? loan.product
  return (loan, product)

def terms (b : Book) (id : LoanId) : Except Error AgingTerms :=
  match b.loanWithProduct? id with
  | some (loan, product) =>
    match Status.ofCode? loan.status with
    | some status => .ok {
        loan := id, status, product := loan.product
        byPlannedSchedule := product.byPlannedSchedule
        grace := loan.graceOf product
        hasHistory := !loan.history.isEmpty }
    | none => .error (.invalidLoan id (.unknownStatus loan.status))
  | none => .error (.loanNotFound id)

/-- The loan is to be looked at by the streaming pass. -/
def isCandidate (b : Book) (today : Date) (loan : Loan) : Bool :=
  loan.isActive &&
    match b.products.find? loan.product with
    | some product =>
      product.byPlannedSchedule &&
        let cutoff := today.cutoffText? (loan.graceOf product)
        loan.plannedEntries.any (·.dueDate.isBeforeText cutoff)
    | none => false

/-- Pages of this many ids, and more, are not limited. -/
def unlimitedPage : Nat := Bound.int64

/-- The first candidates behind `after`, in ascending order. -/
def candidates (b : Book) (after : LoanId) (pageSize : Nat) (today : Date) : List LoanId :=
  let ids := (b.loans.rows.filter fun (id, loan) => after < id && b.isCandidate today loan).map (·.1)
  if pageSize < unlimitedPage then ids.take pageSize else ids

def loanCount (b : Book) : Nat :=
  b.loans.size

def activeCount (b : Book) : Nat :=
  b.loans.rows.countP (·.2.isActive)

end Book

end LoanArrears
