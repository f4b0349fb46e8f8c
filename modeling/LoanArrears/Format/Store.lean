-- SUMMARY: The JSON form of the tables, in which a store is kept between commands.
import LoanArrears.Format.Amount
import LoanArrears.Json.Writer
import LoanArrears.Store.Basic

/-!
# Tables in JSON

All tables are kept in one document. Cents are integers; a stored amount that is
not exact is the text of an integer.
-/

namespace LoanArrears

/-! ## Amounts and tables -/

namespace Cents

def toJson (c : Cents) : Json :=
  .int c.val

def decoder : Decoder Cents :=
  fun v => do Decoder.ofOption (ofInt? (← Decoder.int64 v))

end Cents

namespace Stored

def toJson : Stored → Json
  | .exact c => c.toJson
  | .approx v => .str (String.ofList (Text.signed v))

def decoder : Decoder Stored
  | .str s => approx <$> Decoder.ofOption (Text.readInt? s.toList)
  | v => exact <$> Cents.decoder v

end Stored

namespace Table

/-- A table as a list of keys and rows. -/
def toJson (f : α → Json) (t : Table α) : Json :=
  .list (fun (key, a) => .arr [.int key, f a]) t.rows

def decoder (d : Decoder α) : Decoder (Table α) :=
  fun v => do
    let rows ← Decoder.list (.record (Prod.mk <$> .required "key" Decoder.int64
      <*> .required "row" d)) v
    return rows.foldl (fun t (key, a) => t.put key a) empty

end Table

/-! ## Contents -/

namespace Product

def decoder : Decoder Product :=
  .record <| mk <$> .required "name" Decoder.string <*> .required "by_planned_schedule" Decoder.bool
    <*> .required "grace" Decoder.nat32

def toJson (p : Product) : Json :=
  .obj [("name", p.name), ("by_planned_schedule", p.byPlannedSchedule), ("grace", .nat p.grace)]

end Product

namespace LiveEntry

def decoder : Decoder LiveEntry :=
  .record <| mk <$> .required "installment" Decoder.nat32 <*> .required "due_date" Date.decoder
    <*> .required "due" (Buckets.decoder Cents.decoder)
    <*> .required "completed" (Buckets.decoder Stored.decoder)
    <*> .required "waived" (Buckets.decoder Cents.decoder)
    <*> .required "written_off" (Buckets.decoder Cents.decoder)
    <*> .required "fully_completed" Decoder.bool

def toJson (e : LiveEntry) : Json :=
  .obj [("installment", .nat e.installment), ("due_date", e.dueDate.toJson),
    ("due", e.due.toJson Cents.toJson), ("completed", e.completed.toJson Stored.toJson),
    ("waived", e.waived.toJson Cents.toJson), ("written_off", e.writtenOff.toJson Cents.toJson),
    ("fully_completed", e.fullyCompleted)]

end LiveEntry

namespace HistoryEntry

def decoder : Decoder HistoryEntry :=
  .record <| mk <$> .required "version" Decoder.nat32 <*> .required "installment" Decoder.nat32
    <*> .required "due_date" Date.decoder <*> .required "due" (Buckets.decoder Cents.decoder)

def toJson (e : HistoryEntry) : Json :=
  .obj [("version", .nat e.version), ("installment", .nat e.installment),
    ("due_date", e.dueDate.toJson), ("due", e.due.toJson Cents.toJson)]

end HistoryEntry

namespace Loan

def decoder : Decoder Loan :=
  .record <| mk <$> .required "product" Decoder.int64 <*> .required "status" Decoder.int64
    <*> .nullable "grace" Decoder.nat32
    <*> .required "repaid" (Buckets.decoder Stored.decoder)
    <*> .required "waived" (Buckets.decoder Cents.decoder)
    <*> .required "written_off" (Buckets.decoder Cents.decoder)
    <*> .required "schedule" (Decoder.list LiveEntry.decoder)
    <*> .required "history" (Decoder.list HistoryEntry.decoder)

def toJson (l : Loan) : Json :=
  .obj [("product", .int l.product), ("status", .int l.status), ("grace", .opt .nat l.grace),
    ("repaid", l.repaid.toJson Stored.toJson), ("waived", l.waived.toJson Cents.toJson),
    ("written_off", l.writtenOff.toJson Cents.toJson),
    ("schedule", .list LiveEntry.toJson l.schedule),
    ("history", .list HistoryEntry.toJson l.history)]

end Loan

namespace ArrearsEntry

def decoder : Decoder ArrearsEntry :=
  .record <| mk <$> .required "overdue" (Buckets.decoder Stored.decoder)
    <*> .required "total" Stored.decoder <*> .required "since" Date.decoder

def toJson (e : ArrearsEntry) : Json :=
  .obj [("overdue", e.overdue.toJson Stored.toJson), ("total", e.total.toJson),
    ("since", e.since.toJson)]

end ArrearsEntry

namespace Tables

def decoder : Decoder Tables :=
  .record <| (fun products loans arrears => ⟨⟨products, loans⟩, arrears⟩)
    <$> .required "products" (Table.decoder Product.decoder)
    <*> .required "loans" (Table.decoder Loan.decoder)
    <*> .required "arrears" (Table.decoder ArrearsEntry.decoder)

def toJson (t : Tables) : Json :=
  .obj [("products", t.book.products.toJson Product.toJson),
    ("loans", t.book.loans.toJson Loan.toJson), ("arrears", t.arrears.toJson ArrearsEntry.toJson)]

end Tables

/-! ## Stores -/

namespace Store

/-- The text that a store is kept as; without tables it is empty. -/
def toText (s : Store) : String :=
  match s.tables with
  | some tables => tables.toJson.render
  | none => ""

/-- The store that is kept as a text. -/
def ofText? (text : String) : Option Store :=
  if text = "" then some unmigrated
  else match Tables.decoder.ofText text with
    | .ok tables => some ⟨some tables, false⟩
    | .error _ => none

end Store

end LoanArrears
