-- SUMMARY: Synthetic loans: drawing a schedule, payments and a status at random, and the rows that they come to.
import LoanArrears.Book.Row
import LoanArrears.Random.Generator

/-!
# Synthetic loans

A synthetic loan has three to twelve installments, thirty days apart. It was
disbursed so that some of them are due before the business date. The first ones
are paid in full and the next one in part.

Some of the loans that are paid off are closed. Some of those that age by their
planned schedule are rescheduled: what is still open is moved by two periods,
and the schedule before that is kept as version 1.
-/

namespace LoanArrears.Synthetic

/-! ## Draws -/

/-- A value that depends on a generator; dates may run out of range. -/
abbrev Draw (α : Type) : Type :=
  StateT Generator (Except Crash) α

/-- A number from `lo` to `hi`, drawn with so many bits. -/
def between (bits lo hi : Nat) : Draw Nat :=
  fun g => .ok (g.between bits lo hi)

/-- True with the chance `n / d`. -/
def chance (n d : Nat) : Draw Bool :=
  fun g => .ok (g.chance n d)

def hundredths (n : Nat) : Decimal :=
  (Decimal.mk? n Cents.places).getD Decimal.zero

/-- An amount of `lo` to `hi` cents. -/
def amount (lo hi : Nat) : Draw Decimal :=
  hundredths <$> between 64 lo hi

/-! ## Products -/

/-- A product without grace that ages by the live schedule. -/
def personalLoan : ProductRow :=
  ⟨1, "Personal loan", false, 0⟩

/-- A product that ages by the planned schedule. -/
def businessLoan : ProductRow :=
  ⟨2, "Restructurable SME loan", true, 0⟩

/-- A product with grace. -/
def payrollLoan : ProductRow :=
  ⟨3, "Payroll loan", false, 5⟩

def products : List ProductRow :=
  [personalLoan, businessLoan, payrollLoan]

/-- Half of the loans are personal loans, three in ten business loans. -/
def drawProduct : Draw ProductRow := do
  let n ← between 32 0 9
  return if n < 5 then personalLoan else if n < 8 then businessLoan else payrollLoan

/-! ## Schedules -/

def periodDays : Nat := 30

/-- How far a reschedule moves an installment. -/
def rescheduleDays : Nat := 2 * periodDays

structure Installment where
  number : Nat
  dueDate : Date
  due : Amounts

/-- One in five installments has a fee. -/
def drawFee : Draw Decimal := do
  if ← chance 2 10 then amount 100 2500 else return Decimal.zero

def drawInstallment (disbursed : Date) (number : Nat) : Draw Installment := do
  let dueDate ← Option.orCrash .dateAfterRange (disbursed.addDays? (number * periodDays))
  let principal ← amount 5000 50000
  let interest ← amount 500 5000
  let fee ← drawFee
  return ⟨number, dueDate, ⟨principal, interest, fee, Decimal.zero⟩⟩

def drawSchedule (today : Date) : Draw (List Installment) := do
  let periods ← between 32 3 12
  let elapsed ← between 64 0 periods
  let days ← between 64 0 (periodDays - 1)
  let disbursed ← Option.orCrash .dateBeforeRange
    (today.subDays? (elapsed * periodDays + days))
  ((List.range periods).map (· + 1)).mapM (drawInstallment disbursed)

/-- What is paid of the installment behind `index` others, when so many are paid
    in full and a share of the next one. -/
def Installment.paid (i : Installment) (index paidInFull : Nat) (share : Decimal) :
    Except Crash Amounts := do
  if index < paidInFull then return i.due
  else if index = paidInFull then
    let principal ← i.due.principal.mul share
    let interest ← i.due.interest.mul share
    return ⟨principal.roundTo Cents.places, interest.roundTo Cents.places, Decimal.zero,
      Decimal.zero⟩
  else return Amounts.zero

/-! ## Loans -/

/-- The rows of a synthetic loan. -/
structure LoanRows where
  loan : LoanRow
  live : List LiveRow
  history : List HistoryRow

namespace LoanRows

def isClosed (r : LoanRows) : Bool :=
  r.loan.status = .closedObligationsMet

def isRescheduled (r : LoanRows) : Bool :=
  !r.history.isEmpty

end LoanRows

/-- The date that the installment is live under; a reschedule moves it. -/
def Installment.liveDate (i : Installment) (moved : Bool) : Except Crash Date :=
  if moved then Option.orCrash .dateAfterRange (i.dueDate.addDays? rescheduleDays)
  else .ok i.dueDate

def Installment.liveRow (i : Installment) (loan : LoanId) (rescheduled : Bool) (paid : Amounts) :
    Except Crash LiveRow := do
  let fullyCompleted := (← Amounts.monus i.due paid).isZero
  let dueDate ← i.liveDate (rescheduled && !fullyCompleted)
  return { LiveRow.unpaid loan i.number dueDate i.due with completed := paid, fullyCompleted }

def Installment.historyRow (i : Installment) (loan : LoanId) : HistoryRow where
  loan := loan
  version := 1
  installment := i.number
  dueDate := i.dueDate
  due := i.due

/-- Half of the loans that are paid off are closed. -/
def drawClosed (paidInFull periods : Nat) : Draw Bool :=
  if paidInFull = periods then chance 5 10 else pure false

/-- Six in ten of the open loans that age by their planned schedule are rescheduled. -/
def drawRescheduled (product : ProductRow) (closed : Bool) : Draw Bool :=
  if product.byPlannedSchedule && !closed then chance 6 10 else pure false

def drawLoan (id : LoanId) (today : Date) : Draw LoanRows := do
  let product ← drawProduct
  let schedule ← drawSchedule today
  let paidInFull ← between 32 0 schedule.length
  let share ← amount 0 100
  let closed ← drawClosed paidInFull schedule.length
  let rescheduled ← drawRescheduled product closed
  let paid ← schedule.zipIdx.mapM fun (i, index) => do
    return (i, ← i.paid index paidInFull share)
  let live ← paid.mapM fun (i, paid) => (i.liveRow id rescheduled paid : Except Crash LiveRow)
  let repaid ← ((paid.map (·.2)).foldlM Amounts.add Amounts.zero : Except Crash Amounts)
  return {
    loan := { id, product := product.id
              status := if closed then .closedObligationsMet else .active
              grace := none, totals := { Lifetime.zero with repaid } }
    live
    history := if rescheduled then schedule.map (·.historyRow id) else [] }

end LoanArrears.Synthetic
