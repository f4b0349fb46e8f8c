-- SUMMARY: Non-negative finite numbers of the binary64 format: correct rounding of quotients, products, and the shortest decimal text.
import LoanArrears.Rounding
import LoanArrears.Text.Numeral

/-!
# Binary64

A number of the format is `mantissa * 2 ^ exponent` with a mantissa of at most
53 bits and an exponent of at least -1074. `ofRatio?` rounds a quotient to the
nearest number, a tie going to the even mantissa, and is `none` past the
largest finite one.

`shortest` gives the fewest decimal digits that identify a number, and of
those the nearest; of two that are equally near, the larger.
-/

namespace LoanArrears

structure Binary64 where
  mantissa : Nat
  exponent : Int
deriving DecidableEq

namespace Binary64

def precision : Nat := 53

def minExponent : Int := -1074

/-- Finite numbers stay below two to this power. -/
def maxPower : Int := 1024

/-! ## Rounding -/

/-- Numerator and denominator. -/
def toRatio (x : Binary64) : Nat × Nat :=
  (x.mantissa * twoTo x.exponent.toNat, twoTo (-x.exponent).toNat)

/-- The power of two just below or at `n / d`, for positive `n` and `d`. -/
def floorLog2 (n d : Nat) : Int :=
  let guess := (n.log2 : Int) - d.log2
  if n * twoTo (-guess).toNat < d * twoTo guess.toNat then guess - 1 else guess

def ofRatio? (n d : Nat) : Option Binary64 :=
  if n = 0 then some ⟨0, minExponent⟩
  else
    let exponent := max (floorLog2 n d - (precision - 1)) minExponent
    let mantissa :=
      (roundHalfEven (n * twoTo (-exponent).toNat : Nat) (d * twoTo exponent.toNat)).toNat
    let carried := mantissa = twoTo precision
    let exponent := if carried then exponent + 1 else exponent
    let mantissa := if carried then twoTo (precision - 1) else mantissa
    if exponent + precision ≤ maxPower then some ⟨mantissa, exponent⟩ else none

def ofNat? (n : Nat) : Option Binary64 :=
  ofRatio? n 1

def isZero (x : Binary64) : Bool :=
  x.mantissa = 0

def mul? (x y : Binary64) : Option Binary64 :=
  let (n₁, d₁) := x.toRatio
  let (n₂, d₂) := y.toRatio
  ofRatio? (n₁ * n₂) (d₁ * d₂)

def div? (x y : Binary64) : Option Binary64 :=
  let (n₁, d₁) := x.toRatio
  let (n₂, d₂) := y.toRatio
  ofRatio? (n₁ * d₂) (d₁ * n₂)

/-! ## Shortest digits -/

/-- The ends of the interval of reals that round to `x`, as numerators over
    `4 * denominator`. The interval is shorter below a power of two. -/
def interval (x : Binary64) : Nat × Nat :=
  let unit := twoTo x.exponent.toNat
  let narrow := x.mantissa = twoTo (precision - 1) ∧ minExponent < x.exponent
  (unit * (4 * x.mantissa - if narrow then 1 else 2), unit * (4 * x.mantissa + 2))

/-- Whether `digits * 10 ^ power` rounds to `x`; the ends of the interval do
    when the mantissa is even. -/
def identifiedBy (x : Binary64) (digits : Nat) (power : Int) : Bool :=
  let (lo, hi) := x.interval
  let (_, d) := x.toRatio
  let point := 4 * d * digits * tenTo power.toNat
  let scale := tenTo (-power).toNat
  if x.mantissa % 2 = 0 then lo * scale ≤ point && point ≤ hi * scale
  else lo * scale < point && point < hi * scale

/-- The power of ten just below or at `x`, for `x` above zero. -/
def floorLog10 (x : Binary64) : Int :=
  let (n, d) := x.toRatio
  if d ≤ n then ((Text.numeral (n / d)).length : Int) - 1
  else -(((List.range 400).find? fun k => d ≤ n * tenTo (k + 1)).getD 0 + 1 : Nat)

/-- One of the two neighbours of `x` among the multiples of `10 ^ power` that
    rounds to `x`, the nearer one if both do; halfway between them the upper one. -/
def neighbour? (x : Binary64) (power : Int) : Option Nat :=
  let (n, d) := x.toRatio
  let num := n * tenTo (-power).toNat
  let den := d * tenTo power.toNat
  let below := num / den
  let takesUpper := den ≤ 2 * (num % den)
  match x.identifiedBy below power, x.identifiedBy (below + 1) power with
  | true, true => some (if takesUpper then below + 1 else below)
  | true, false => some below
  | false, true => some (below + 1)
  | false, false => none

/-- Digits and power of ten of the shortest decimal that rounds to `x`. -/
def shortest (x : Binary64) : Nat × Int :=
  if x.isZero then (0, 0)
  else
    let top := x.floorLog10
    let found := (List.range 17).findSome? fun (k : Nat) =>
      let power := top - k
      (x.neighbour? power).map (·, power)
    found.getD (0, 0)

/-- The shortest decimal in positional notation. -/
def toChars (x : Binary64) : List Char :=
  let (digits, power) := x.shortest
  let places := (-power).toNat
  let text := Text.padded (places + 1) digits ++ List.replicate power.toNat '0'
  if places = 0 then text
  else text.take (text.length - places) ++ '.' :: text.drop (text.length - places)

end Binary64

end LoanArrears
