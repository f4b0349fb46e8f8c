-- SUMMARY: The arrears table: its checks, single writes and batches, the bulk insert over the loan book, and reading rows.
import LoanArrears.Arrears.Write
import LoanArrears.Book.Query

/-!
# The arrears table

One entry for each loan in arrears. An entry is checked when it is written: the
principal is positive, no bucket is negative, and the total is the sum of the
buckets.

The bulk insert ages all loans that do not replay their planned schedule, in
the order of their ids. It follows the rules of `Totals.ofLive`, with stored
numbers and dates as texts.
-/

namespace LoanArrears

structure ArrearsEntry where
  overdue : Buckets Stored
  total : Stored
  since : Date
deriving DecidableEq

abbrev ArrearsTable : Type :=
  Table ArrearsEntry

/-- The buckets added up from the left. -/
def Buckets.storedSum (b : Buckets Stored) : Stored :=
  ((b.principal.add b.interest).add b.fee).add b.penalty

namespace ArrearsEntry

/-- What an entry has to satisfy, with the texts of the conditions. -/
def checks (e : ArrearsEntry) : List (String × Bool) :=
  [("principal_overdue > 0", 0 < e.overdue.principal.val),
   ("interest_overdue >= 0", 0 ≤ e.overdue.interest.val),
   ("fee_overdue >= 0", 0 ≤ e.overdue.fee.val),
   ("penalty_overdue >= 0", 0 ≤ e.overdue.penalty.val),
   ("total_overdue = principal_overdue + interest_overdue + fee_overdue + penalty_overdue",
    e.total.val = e.overdue.storedSum.val)]

def check (e : ArrearsEntry) : Except Error Unit :=
  match e.checks.find? (!·.2) with
  | some (condition, _) => .error (.violatedAt "CHECK" condition)
  | none => .ok ()

/-- Names of the columns of the buckets, and of the total. -/
def columns : Buckets String :=
  ⟨"principal_overdue", "interest_overdue", "fee_overdue", "penalty_overdue"⟩

def totalColumn : String := "total_overdue"

def read (e : ArrearsEntry) (id : LoanId) : Except Error AgingRow := do
  let overdue ← e.overdue.readStored 1 columns
  let total ← e.total.read 5 totalColumn
  return ⟨id, Amounts.ofCents overdue, Decimal.ofCents total, e.since⟩

end ArrearsEntry

/-! ## Writes -/

/-- The entry of a position, its buckets and its total each brought to cents. -/
def ArrearsPosition.prepare (a : ArrearsPosition) : Except Fault ArrearsEntry := do
  let overdue ← Amounts.toCents a.overdue
  let total ← a.total
  let total ← total.toCents
  return ⟨exactly overdue, .exact total, a.since⟩

namespace ArrearsTable

def upsert (t : ArrearsTable) (id : LoanId) (e : ArrearsEntry) : Except Error ArrearsTable := do
  e.check
  return t.put id e

def write (t : ArrearsTable) : ArrearsWrite → Except Fault ArrearsTable
  | .upsert a => do
    let entry ← a.prepare
    t.upsert a.loan entry
  | .delete loan => .ok (t.erase loan)

def row? (t : ArrearsTable) (id : LoanId) : Except Error (Option AgingRow) :=
  match t.find? id with
  | some e => some <$> e.read id
  | none => .ok none

def rows (t : ArrearsTable) : Except Error (List AgingRow) :=
  Table.rows t |>.mapM fun (id, e) => e.read id

end ArrearsTable

/-! ## Bulk insert -/

def LiveEntry.outstanding (e : LiveEntry) : Buckets Stored :=
  (((exactly e.due).zipWith Stored.sub e.completed).zipWith Stored.sub
    (exactly e.waived)).zipWith Stored.sub (exactly e.writtenOff)

/-- The date with the smaller text. -/
def Date.minByText (a b : Date) : Date :=
  if b.toText < a.toText then b else a

/-- The sum of what is outstanding in each bucket. -/
def overdueSums (entries : List LiveEntry) : Except Error (Buckets Stored) :=
  let column (bucket : Buckets Stored → Stored) : Except Error Stored :=
    match Stored.sum? (entries.map fun e => (bucket e.outstanding).floor) with
    | some sum => .ok sum
    | none => .error (.database (.failure DatabaseError.statement (some "integer overflow")))
  do return ⟨← column (·.principal), ← column (·.interest), ← column (·.fee), ← column (·.penalty)⟩

/-- The oldest date with principal outstanding. -/
def overdueSince? (entries : List LiveEntry) : Option Date :=
  ((entries.filter (0 < ·.outstanding.principal.val)).map (·.dueDate)).foldl
    (fun since due => some ((since.map (·.minByText due)).getD due)) none

/-- The entry of a loan aged off its live schedule, if it is in arrears. -/
def Loan.bulkEntry? (l : Loan) (cutoff : Option String) : Except Error (Option ArrearsEntry) := do
  let entries := l.schedule.filter fun e => !e.fullyCompleted && e.dueDate.isBeforeText cutoff
  let sums ← overdueSums entries
  match overdueSince? entries with
  | some since =>
    if 0 < sums.principal.val then
      return some ⟨sums.map Stored.settle, sums.storedSum.settle, since⟩
    else return none
  | none => return none

/-- The loan is aged by the bulk insert. -/
def Loan.isAgedInBulk (l : Loan) (p : Product) : Bool :=
  l.isActive && (!p.byPlannedSchedule || l.history.isEmpty)

namespace Book

/-- Insert the entry of one loan, if it is aged in bulk and in arrears. -/
def bulkStep (b : Book) (today : Date) (done : Nat × ArrearsTable) (row : LoanId × Loan) :
    Except Error (Nat × ArrearsTable) := do
  let (count, table) := done
  let (id, loan) := row
  match b.products.find? loan.product with
  | some product =>
    if loan.isAgedInBulk product then
      match ← loan.bulkEntry? (today.cutoffText? (loan.graceOf product)) with
      | some entry =>
        entry.check
        if table.contains id then .error (.notUnique "loan_arrears_aging" ["loan_id"])
        else return (count + 1, table.put id entry)
      | none => return done
    else return done
  | none => return done

/-- The table after the bulk insert, and how many entries were added. -/
def bulkInsert (b : Book) (today : Date) (table : ArrearsTable) :
    Except Error (Nat × ArrearsTable) :=
  b.loans.rows.foldlM (b.bulkStep today) (0, table)

end Book

end LoanArrears
