-- SUMMARY: One value per repayment bucket, and amounts of money split into buckets: totals, sums, floored differences and cents.
import LoanArrears.Cents
import LoanArrears.Crash
import LoanArrears.Decimal.Text

/-!
# Buckets

Every figure of a loan is split four ways: principal, interest, fees and
penalties. `Buckets α` holds one `α` for each, and `Amounts` are decimals split
that way. The buckets are always taken in this order.
-/

namespace LoanArrears

structure Buckets (α : Type) where
  principal : α
  interest : α
  fee : α
  penalty : α
deriving DecidableEq

namespace Buckets

def all (a : α) : Buckets α :=
  ⟨a, a, a, a⟩

def map (f : α → β) (b : Buckets α) : Buckets β :=
  ⟨f b.principal, f b.interest, f b.fee, f b.penalty⟩

def zipWith (f : α → β → γ) (a : Buckets α) (b : Buckets β) : Buckets γ :=
  ⟨f a.principal b.principal, f a.interest b.interest, f a.fee b.fee, f a.penalty b.penalty⟩

def mapM [Monad m] (f : α → m β) (b : Buckets α) : m (Buckets β) := do
  return ⟨← f b.principal, ← f b.interest, ← f b.fee, ← f b.penalty⟩

def zipWithM [Monad m] (f : α → β → m γ) (a : Buckets α) (b : Buckets β) : m (Buckets γ) := do
  return ⟨← f a.principal b.principal, ← f a.interest b.interest, ← f a.fee b.fee,
    ← f a.penalty b.penalty⟩

def toList (b : Buckets α) : List α :=
  [b.principal, b.interest, b.fee, b.penalty]

end Buckets

/-! ## Amounts -/

abbrev Amounts : Type := Buckets Decimal

namespace Decimal

def add (a b : Decimal) : Except Crash Decimal :=
  Option.orCrash .additionOverflowed (a.add? b)

def sub (a b : Decimal) : Except Crash Decimal :=
  Option.orCrash .subtractionOverflowed (a.sub? b)

def mul (a b : Decimal) : Except Crash Decimal :=
  Option.orCrash .multiplicationOverflowed (a.mul? b)

/-- `a - b`, or zero if that is negative. -/
def monus (a b : Decimal) : Except Crash Decimal :=
  (·.max zero) <$> a.sub b

end Decimal

namespace Amounts

def zero : Amounts :=
  Buckets.all Decimal.zero

def ofPrincipal (a : Decimal) : Amounts :=
  { zero with principal := a }

def ofCents (b : Buckets Cents) : Amounts :=
  b.map Decimal.ofCents

/-- The buckets added up from the left. -/
def total (b : Amounts) : Except Crash Decimal := do
  let sum ← b.principal.add b.interest
  let sum ← sum.add b.fee
  sum.add b.penalty

def isZero (b : Amounts) : Bool :=
  b.toList.all Decimal.isZero

def anyNegative (b : Amounts) : Bool :=
  b.toList.any Decimal.isNegative

def add (a b : Amounts) : Except Crash Amounts :=
  a.zipWithM Decimal.add b

/-- Bucket by bucket `a - b`, or zero where that is negative. -/
def monus (a b : Amounts) : Except Crash Amounts :=
  a.zipWithM Decimal.monus b

/-- The same numbers, whatever their scales. -/
def eqv (a b : Amounts) : Bool :=
  (a.zipWith Decimal.eqv b).toList.all id

/-- The buckets as they stand in messages. -/
def describe (b : Amounts) : String :=
  "Buckets \x7b principal: " ++ b.principal.toText ++ ", interest: " ++ b.interest.toText ++
    ", fee: " ++ b.fee.toText ++ ", penalty: " ++ b.penalty.toText ++ " \x7d"

end Amounts

end LoanArrears
