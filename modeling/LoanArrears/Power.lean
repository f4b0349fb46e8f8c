-- SUMMARY: Powers of two and of ten, and the bounds of numbers of fixed width.

/-!
# Powers and bounds

Numbers of fixed width are numbers with a bound: a number of 64 bits is below
`Bound.nat64`, and a signed one is below `Bound.int64` and not below its negative.
-/

namespace LoanArrears

/-! ## Powers -/

/-- Two to the power `n`. -/
def twoTo (n : Nat) : Nat :=
  Nat.pow 2 n

/-- Ten to the power `n`. -/
def tenTo (n : Nat) : Nat :=
  Nat.pow 10 n

@[simp] theorem twoTo_zero : twoTo 0 = 1 := rfl

theorem twoTo_pos (n : Nat) : 0 < twoTo n :=
  Nat.pow_pos (by decide)

@[simp] theorem tenTo_zero : tenTo 0 = 1 := rfl

theorem tenTo_pos (n : Nat) : 0 < tenTo n :=
  Nat.pow_pos (by decide)

theorem tenTo_add (m n : Nat) : tenTo (m + n) = tenTo m * tenTo n :=
  Nat.pow_add 10 m n

/-! ## Bounds -/

namespace Bound

/-- Two to the power 32. -/
def nat32 : Nat := 4294967296

/-- Two to the power 63. -/
def int64 : Nat := 9223372036854775808

/-- Two to the power 64. -/
def nat64 : Nat := 18446744073709551616

/-- Two to the power 96. -/
def nat96 : Nat := 79228162514264337593543950336

end Bound

end LoanArrears
