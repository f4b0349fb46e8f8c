-- SUMMARY: A store with the tables of the loan book and of the arrears: statements, transactions, and access by the engine.
import LoanArrears.Book.Arrears
import LoanArrears.Store.Access

/-!
# Stores

A `Store` has no tables until it is migrated. A statement fails without its
tables, and one that fails changes nothing. There is one transaction at a time;
one that does not succeed leaves the tables as they were before it.

Any state that holds a store (`HasStore`) can be used by the engine.
-/

namespace LoanArrears

structure Tables where
  book : Book
  arrears : ArrearsTable
deriving DecidableEq

def Tables.empty : Tables :=
  ⟨Book.empty, Table.empty⟩

structure Store where
  /-- None before the migration. -/
  tables : Option Tables
  inTransaction : Bool
deriving DecidableEq

class HasStore (σ : Type) where
  store : σ → Store
  setStore : Store → σ → σ
  /-- Asked before a statement on tables, which changes them or only reads. -/
  beforeStatement : (changes : Bool) → Act σ Unit := fun _ => pure ()

instance : HasStore Store where
  store s := s
  setStore s _ := s

namespace Store

def unmigrated : Store :=
  ⟨none, false⟩

def new : Store :=
  ⟨some Tables.empty, false⟩

variable [HasStore σ]

/-! ## Statements -/

/-- Run on the store of a larger state. -/
def within (a : Act Store α) : Act σ α :=
  a.zoom HasStore.store HasStore.setStore

/-- A statement without its tables fails whatever else stands in its way. -/
def statement (changes : Bool) (a : Act Store α) : Act σ α := do
  if (HasStore.store (← get)).tables.isSome then HasStore.beforeStatement changes
  within a

def reading (a : Act Store α) : Act σ α :=
  statement false a

def changing (a : Act Store α) : Act σ α :=
  statement true a

theorem exec_statement (changes : Bool) (a : Act Store α) (s : Store) :
    (statement changes a : Act Store α).exec s = a.exec s := by
  change (if s.tables.isSome then
    (do HasStore.beforeStatement changes; within a : Act Store α) else within a).exec s = a.exec s
  split <;> rfl

/-- A statement on a table that may change it. -/
def update (table : String) (f : Tables → Except Error (α × Tables)) : Act Store α :=
  Act.ofExec fun s =>
    match s.tables with
    | none => (.error (.error (.noSuchTable table)), s)
    | some tables =>
      match f tables with
      | .ok (a, tables) => (.ok a, { s with tables := some tables })
      | .error e => (.error (.error e), s)

/-- A statement on a table that only reads. -/
def query (table : String) (f : Tables → Except Error α) : Act Store α :=
  update table fun t => (·, t) <$> f t

def updateBook (table : String) (f : Book → Except Error Book) : Act Store Unit :=
  update table fun t => do return ((), { t with book := ← f t.book })

def queryBook (table : String) (f : Book → Except Error α) : Act Store α :=
  query table fun t => f t.book

namespace Names

def product : String := "loan_product"
def loan : String := "loan"
def schedule : String := "loan_repayment_schedule"
def history : String := "loan_repayment_schedule_history"
def arrears : String := "loan_arrears_aging"

end Names

/-- Create the tables that are not there. -/
def migrate : Act σ Unit := do
  HasStore.beforeStatement (HasStore.store (← get)).tables.isNone
  within <| Act.ofExec fun s =>
    (.ok (), { s with tables := some (s.tables.getD Tables.empty) })

/-! ## Transactions -/

def nestedTransaction : Error :=
  .database (.failure DatabaseError.statement
    (some "cannot start a transaction within a transaction"))

/-- Run an operation in a transaction of its own. -/
def atomically (a : Act σ α) : Act σ α :=
  Act.ofExec fun s =>
    let before := HasStore.store s
    if before.inTransaction then (.error (.error nestedTransaction), s)
    else
      match a.exec (HasStore.setStore { before with inTransaction := true } s) with
      | (.ok v, t) =>
        (.ok v, HasStore.setStore { HasStore.store t with inTransaction := false } t)
      | (.error f, t) => (.error f, HasStore.setStore before t)

instance : Transactions σ where
  atomically := atomically

instance : Connections σ where
  connect := pure ()

/-! ## The loan module -/

def insertProduct (r : ProductRow) : Act σ Unit :=
  changing <| updateBook Names.product (·.addProduct r)

def insertLoan (r : LoanRow) : Act σ Unit := do
  let loan ← r.prepare
  changing <| updateBook Names.loan (·.addLoan r.id loan)

def insertSchedule (r : LiveRow) : Act σ Unit := do
  let entry ← r.prepare
  changing <| updateBook Names.schedule (·.addLive r.loan entry)

def insertHistory (r : HistoryRow) : Act σ Unit := do
  let entry ← r.prepare
  changing <| updateBook Names.history (·.addHistory r.loan entry)

def repay (loan : LoanId) (installment : Nat) (amount : Amounts) : Act σ Unit := do
  let cents ← Amounts.toCents amount
  changing <| updateBook Names.schedule (·.repay loan installment cents)

def setStatus (loan : LoanId) (status : Status) : Act σ Unit :=
  changing <| updateBook Names.loan (·.setStatus loan status)

def setStatusCode (loan : LoanId) (code : Int) : Act σ Unit :=
  changing <| updateBook Names.loan fun b => .ok (b.setStatusCode loan code)

def product? (id : Int) : Act σ (Option ProductRow) :=
  reading <| queryBook Names.product fun b => .ok (b.product? id)

def loanCount : Act σ Nat :=
  reading <| queryBook Names.loan fun b => .ok b.loanCount

def activeCount : Act σ Nat :=
  reading <| queryBook Names.loan fun b => .ok b.activeCount

/-! ## The arrears table -/

def row? (loan : LoanId) : Act σ (Option AgingRow) :=
  reading <| query Names.arrears (·.arrears.row? loan)

/-- All rows in ascending order of their loans. -/
def rows : Act σ (List AgingRow) :=
  reading <| query Names.arrears (·.arrears.rows)

def rowCount : Act σ Nat :=
  reading <| query Names.arrears fun t => .ok t.arrears.size

def write (w : ArrearsWrite) : Act σ Unit :=
  match w with
  | .upsert a => do
    let entry ← a.prepare
    changing <| update Names.arrears fun t => do
      return ((), { t with arrears := ← t.arrears.upsert a.loan entry })
  | .delete loan =>
    changing <| update Names.arrears fun t =>
      .ok ((), { t with arrears := t.arrears.erase loan })

def writeBatch (writes : List ArrearsWrite) : Act σ Unit :=
  atomically (writes.forM write)

def reset : Act σ Nat :=
  changing <| update Names.arrears fun t => .ok (t.arrears.size, { t with arrears := Table.empty })

def bulkInsert (today : Date) : Act σ Nat :=
  changing <| update Names.arrears fun t => do
    let (count, arrears) ← t.book.bulkInsert today t.arrears
    return (count, { t with arrears })

instance : ArrearsAccess σ where
  reset := reset
  bulkInsert := bulkInsert
  writeBatch := writeBatch
  write := write

instance : BookAccess σ where
  candidates after pageSize today :=
    reading <| queryBook Names.loan fun b => .ok (b.candidates after pageSize today)
  plannedInstallments loan :=
    reading <| queryBook Names.history fun b => .ok (b.plannedInstallments loan)
  liveInstallments loan := reading <| queryBook Names.schedule (·.liveInstallments loan)
  consumption loan := reading <| queryBook Names.loan (·.consumption loan)
  terms loan := reading <| queryBook Names.loan (·.terms loan)

end Store

end LoanArrears
