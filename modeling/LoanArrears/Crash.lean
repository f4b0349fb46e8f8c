-- SUMMARY: The ways in which a computation ends without an answer, and lifting partial operations to them.

/-!
# Crashes

Arithmetic on amounts and dates has no answer past the ends of their ranges. A
`Crash` ends the whole computation; no rule of the library handles it.
-/

namespace LoanArrears

inductive Crash where
  | additionOverflowed
  | subtractionOverflowed
  | multiplicationOverflowed
  | dateBeforeRange
  | dateAfterRange
  | injected
  | prefetchCrashed
deriving DecidableEq

def Crash.message : Crash → String
  | .additionOverflowed => "Addition overflowed"
  | .subtractionOverflowed => "Subtraction overflowed"
  | .multiplicationOverflowed => "Multiplication overflowed"
  | .dateBeforeRange => "`NaiveDate - TimeDelta` overflowed"
  | .dateAfterRange => "`NaiveDate + TimeDelta` overflowed"
  | .injected => "injected panic"
  | .prefetchCrashed => "a scoped thread panicked"

/-- The value, or a crash where there is none. -/
def Option.orCrash (c : Crash) : Option α → Except Crash α
  | some a => .ok a
  | none => .error c

end LoanArrears
