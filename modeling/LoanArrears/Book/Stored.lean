-- SUMMARY: Amounts in table columns: exact cents, or numbers that left the range and are kept with 53 bits.
import LoanArrears.Cents
import LoanArrears.Error

/-!
# Stored amounts

A column of an amount holds exact cents. A sum or difference that leaves the
range of 64 bits is kept with 53 leading bits instead, and goes on being
computed that way; written back into a column it is exact again if it is in
range. Only exact cents can be read out of a table.
-/

namespace LoanArrears

inductive Stored where
  | exact (c : Cents)
  | approx (v : Int)
deriving DecidableEq

namespace Stored

def zero : Stored :=
  .exact .zero

def val : Stored → Int
  | .exact c => c.val
  | .approx v => v

def isExact : Stored → Bool
  | .exact _ => true
  | .approx _ => false

/-- Leading bits that an approximate number keeps. -/
def bits : Nat := 53

def round (v : Int) : Int :=
  roundBits bits v

/-! ## Arithmetic -/

/-- Combine two numbers: exactly if both are and the result is in range. -/
def combine (op : Int → Int → Int) (a b : Stored) : Stored :=
  let approximate := .approx (round (op (round a.val) (round b.val)))
  match a, b with
  | .exact x, .exact y => ((Cents.ofInt? (op x.val y.val)).map .exact).getD approximate
  | _, _ => approximate

def add : Stored → Stored → Stored :=
  combine (· + ·)

def sub : Stored → Stored → Stored :=
  combine (· - ·)

/-- The number, or zero if it is negative. -/
def floor (a : Stored) : Stored :=
  if a.val < 0 then zero else a

/-- The sum of a column, unless it is made of exact numbers and leaves the range. -/
def sum? (column : List Stored) : Option Stored :=
  let total := column.foldl (· + ·.val) 0
  if column.all isExact then (Cents.ofInt? total).map .exact else some (.approx (round total))

/-- The number as a column keeps it. -/
def settle (a : Stored) : Stored :=
  match a with
  | .exact _ => a
  | .approx v =>
    if v = -Bound.int64 then a else ((Cents.ofInt? v).map .exact).getD a

/-- The number read out of a column. -/
def read (a : Stored) (index : Nat) (column : String) : Except Error Cents :=
  match a with
  | .exact c => .ok c
  | .approx _ => .error (.database (.columnType index column "Real"))

theorem add_exact {a b c : Cents} (h : Cents.ofInt? (a.val + b.val) = some c) :
    add (.exact a) (.exact b) = .exact c := by
  simp [add, combine, h]

theorem sub_exact {a b c : Cents} (h : Cents.ofInt? (a.val - b.val) = some c) :
    sub (.exact a) (.exact b) = .exact c := by
  simp [sub, combine, h]

end Stored

/-- Read four neighbouring columns, from the given index on. -/
def Buckets.readStored (b : Buckets Stored) (index : Nat) (columns : Buckets String) :
    Except Error (Buckets Cents) := do
  return ⟨← b.principal.read index columns.principal,
    ← b.interest.read (index + 1) columns.interest,
    ← b.fee.read (index + 2) columns.fee,
    ← b.penalty.read (index + 3) columns.penalty⟩

end LoanArrears
