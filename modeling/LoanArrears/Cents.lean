-- SUMMARY: Signed 64-bit numbers of cents, the form in which amounts are stored, and their exchange with decimals.
import LoanArrears.Decimal.Basic

/-!
# Cents

Stored amounts are whole cents in signed 64 bits. `Decimal.ofCents` is exact.
`Decimal.toCents?` rounds to two places first, a half going to the even cent,
and is `none` when the result leaves the range.
-/

namespace LoanArrears

/-- Places of a stored amount. -/
def Cents.places : Nat := 2

structure Cents where
  val : Int
  lo_le : -9223372036854775808 ≤ val := by decide
  lt_hi : val < 9223372036854775808 := by decide
deriving DecidableEq

namespace Cents

def zero : Cents where
  val := 0

instance : Inhabited Cents := ⟨zero⟩

def ofInt? (v : Int) : Option Cents :=
  if h : -9223372036854775808 ≤ v ∧ v < 9223372036854775808 then some ⟨v, h.1, h.2⟩ else none

theorem ofInt?_val (c : Cents) : ofInt? c.val = some c := by
  simp only [ofInt?, c.lo_le, c.lt_hi, and_self, dite_true]

theorem val_of_ofInt? {v : Int} {c : Cents} (h : ofInt? v = some c) : c.val = v := by
  unfold ofInt? at h
  split at h
  · rw [← Option.some.inj h]
  · simp at h

end Cents

/-! ## Exchange with decimals -/

namespace Decimal

def ofCents (c : Cents) : Decimal where
  coeff := c.val
  scale := Cents.places
  coeff_lt := by
    have h₁ := c.lo_le
    have h₂ := c.lt_hi
    simp only [coeffLimit, Bound.nat96]
    omega

def toCents? (a : Decimal) : Option Cents :=
  Cents.ofInt? ((a.roundTo Cents.places).widenTo Cents.places).coeff

theorem toCents?_ofCents (c : Cents) : (ofCents c).toCents? = some c := by
  have hround : (ofCents c).roundTo Cents.places = ofCents c := by simp [roundTo, ofCents]
  have hwiden : (ofCents c).widenTo Cents.places = ofCents c := by
    have hlt : c.val.natAbs < coeffLimit := (ofCents c).coeff_lt
    simp [widenTo, ofCents, mk?_eq_some hlt (show Cents.places ≤ maxScale by decide)]
  rw [toCents?, hround, hwiden]
  exact Cents.ofInt?_val c

end Decimal

end LoanArrears
