-- SUMMARY: Decimal numbers with a bounded coefficient and scale: comparison, rounding to places, sums, differences and products.
import LoanArrears.Rounding

/-!
# Decimal numbers

A `Decimal` is an integer coefficient over a power of ten. The coefficient has
at most 96 bits and the scale is at most 28. The scale belongs to the value as
it is written (`1.10` and `1.1` are different decimals), and so does the minus
sign of a zero, but neither belongs to its size: `lt` and `eqv` compare the
numbers that two decimals stand for.

Sums, differences and products keep as many places as fit. They are `none`
when not even the integer part fits.
-/

namespace LoanArrears

/-- Coefficients stay below this bound. -/
def Decimal.coeffLimit : Nat := Bound.nat96

/-- The largest number of places. -/
def Decimal.maxScale : Nat := 28

structure Decimal where
  coeff : Int
  scale : Nat
  /-- A zero that is written with a minus sign. -/
  minusZero : Bool := false
  coeff_lt : coeff.natAbs < Decimal.coeffLimit := by decide
  scale_le : scale ≤ Decimal.maxScale := by decide
  coeff_eq : minusZero = true → coeff = 0 := by nofun
deriving DecidableEq

namespace Decimal

/-! ## Making decimals -/

/-- The decimal `coeff / 10 ^ scale`, if both parts are within bounds. -/
def mk? (coeff : Int) (scale : Nat) : Option Decimal :=
  if h : coeff.natAbs < coeffLimit ∧ scale ≤ maxScale then
    some { coeff, scale, coeff_lt := h.1, scale_le := h.2 }
  else none

def zero : Decimal where
  coeff := 0
  scale := 0

instance : Inhabited Decimal := ⟨zero⟩

/-- `n / 10 ^ scale`, with as few of its last places dropped as make it fit. -/
def fit? (n : Int) (scale : Nat) : Option Decimal :=
  (List.range (scale + 1)).findSome? fun dropped =>
    mk? (roundHalfEven n (tenTo dropped)) (scale - dropped)

theorem mk?_eq_some {coeff : Int} {scale : Nat} (h₁ : coeff.natAbs < coeffLimit)
    (h₂ : scale ≤ maxScale) :
    mk? coeff scale = some { coeff, scale, coeff_lt := h₁, scale_le := h₂ } := by
  simp [mk?, h₁, h₂]

/-- A number that fits is not rounded. -/
theorem fit?_eq_some {n : Int} {scale : Nat} (h₁ : n.natAbs < coeffLimit)
    (h₂ : scale ≤ maxScale) :
    fit? n scale = some { coeff := n, scale, coeff_lt := h₁, scale_le := h₂ } := by
  simp [fit?, List.range_succ_eq_map, roundHalfEven_one, mk?_eq_some h₁ h₂]

/-! ## Comparison -/

/-- The coefficient of `a` when written with `scale` places, `a.scale ≤ scale`. -/
def coeffAt (a : Decimal) (scale : Nat) : Int :=
  a.coeff * tenTo (scale - a.scale)

/-- `a` is a smaller number than `b`. -/
def lt (a b : Decimal) : Bool :=
  a.coeff * tenTo b.scale < b.coeff * tenTo a.scale

/-- `a` is no larger a number than `b`. -/
def le (a b : Decimal) : Bool :=
  !b.lt a

/-- `a` and `b` are the same number, whatever their scales. -/
def eqv (a b : Decimal) : Bool :=
  a.coeff * tenTo b.scale = b.coeff * tenTo a.scale

def isZero (a : Decimal) : Bool :=
  a.coeff = 0

def isNegative (a : Decimal) : Bool :=
  a.coeff < 0

def isPositive (a : Decimal) : Bool :=
  0 < a.coeff

/-- The larger number; of two equal ones the first. -/
def max (a b : Decimal) : Decimal :=
  if a.lt b then b else a

theorem lt_zero (a : Decimal) : a.lt zero = a.isNegative := by
  simp [lt, isNegative, zero]

/-! ## Sums, differences and products -/

/-- The number with its sign turned; a zero stays as it is. -/
def neg (a : Decimal) : Decimal where
  coeff := -a.coeff
  scale := a.scale
  minusZero := a.minusZero
  coeff_lt := by simpa using a.coeff_lt
  scale_le := a.scale_le
  coeff_eq h := by simp [a.coeff_eq h]

/-- A zero takes on the other summand's scale. -/
def add? (a b : Decimal) : Option Decimal :=
  if a.isZero then some b
  else if b.isZero then some a
  else
    let scale := Nat.max a.scale b.scale
    fit? (a.coeffAt scale + b.coeffAt scale) scale

def sub? (a b : Decimal) : Option Decimal :=
  a.add? b.neg

def mul? (a b : Decimal) : Option Decimal :=
  if a.isZero || b.isZero then some zero else fit? (a.coeff * b.coeff) (a.scale + b.scale)

/-! ## Places -/

/-- `a` with at most `places` places, rounded half to even. -/
def roundTo (places : Nat) (a : Decimal) : Decimal :=
  if h : a.scale ≤ places then a
  else {
    coeff := roundHalfEven a.coeff (tenTo (a.scale - places))
    scale := places
    coeff_lt := Nat.lt_of_le_of_lt (roundHalfEven_natAbs_le _ (tenTo_pos _)) a.coeff_lt
    scale_le := by have := a.scale_le; omega }

/-- `a` over another `10 ^ exponent`, for exponents up to the largest scale.
    Places past that are cut off, a half going away from zero; a negative
    number of which nothing is left keeps its sign. -/
def divTenTo? (a : Decimal) (exponent : Nat) : Option Decimal :=
  if exponent ≤ maxScale then
    let coeff := roundHalfAway a.coeff (tenTo (a.scale + exponent - maxScale))
    some {
      coeff
      scale := Nat.min (a.scale + exponent) maxScale
      minusZero := a.coeff < 0 && coeff = 0
      coeff_lt := Nat.lt_of_le_of_lt (roundHalfAway_natAbs_le _ (tenTo_pos _)) a.coeff_lt
      scale_le := Nat.min_le_right ..
      coeff_eq := by simp }
  else none

/-- `a` with zeros added behind, up to `places` places or as far as they fit. -/
def widenTo (places : Nat) (a : Decimal) : Decimal :=
  let wider := (List.range (places - a.scale + 1)).reverse.findSome? fun added =>
    mk? (a.coeff * tenTo added) (a.scale + added)
  wider.getD a

end Decimal

end LoanArrears
