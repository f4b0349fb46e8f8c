-- SUMMARY: The permuted congruential generator with 128 bits of state: seeding, 64-bit outputs, and draws from a range or with a chance.
import LoanArrears.Binary64

/-!
# Random numbers

A multiplicative congruential generator on 128 bits. An output folds the halves
of the state by exclusive or and rotates them by the top bits of the state. The
same seed always gives the same numbers.
-/

namespace LoanArrears

structure Generator where
  state : Nat
deriving DecidableEq

namespace Generator

/-- The low `bits` bits. -/
def low (bits n : Nat) : Nat :=
  n % twoTo bits

/-- Rotate the low `bits` bits of `n` to the right. -/
def rotateRight (bits n places : Nat) : Nat :=
  let n := low bits n
  let r := places % bits
  low bits (n >>> r ||| n <<< (bits - r))

/-! ## Seeding -/

/-- One step of the sequence that spreads a seed, and 32 bits of it. -/
def spread (seed : Nat) : Nat × Nat :=
  let s := low 64 (seed * 6364136223846793005 + 11634580027462260723)
  (rotateRight 32 (low 32 ((s >>> 18 ^^^ s) >>> 27)) (s >>> 59), s)

/-- The generator of a 64-bit seed. Its state is odd. -/
def ofSeed (seed : Nat) : Generator :=
  let (a, s) := spread (low 64 seed)
  let (b, s) := spread s
  let (c, s) := spread s
  let (d, _) := spread s
  ⟨(a ||| b <<< 32 ||| c <<< 64 ||| d <<< 96) ||| 1⟩

/-! ## Outputs -/

def multiplier : Nat := 0x2360ED051FC65DA44385DF649FCCF645

def next64 (g : Generator) : Nat × Generator :=
  let state := low 128 (g.state * multiplier)
  (rotateRight 64 (state >>> 64 ^^^ low 64 state) (state >>> 122), ⟨state⟩)

/-- An output of `bits` bits, 32 or 64. -/
def nextBits (bits : Nat) (g : Generator) : Nat × Generator :=
  let (v, g) := g.next64
  (low bits v, g)

/-! ## Draws -/

/-- A number below `range`, with every number equally likely: outputs are taken
    until the low half of their product with `range` is in the zone. There are
    no more outputs to try than states. -/
def below (bits range : Nat) (g : Generator) : Nat × Generator :=
  let zone := range <<< (bits - 1 - range.log2) - 1
  search zone (twoTo 128) g
where
  search (zone : Nat) : Nat → Generator → Nat × Generator
    | 0, g => (0, g)
    | tries + 1, g =>
      let (v, g) := g.nextBits bits
      let product := v * range
      if low bits product ≤ zone then (product >>> bits, g) else search zone tries g

/-- A number from `lo` to `hi`, both included. -/
def between (bits : Nat) (lo hi : Nat) (g : Generator) : Nat × Generator :=
  let drawn := g.below bits (hi - lo + 1)
  (lo + drawn.1, drawn.2)

/-- True with the chance `n / d`, taken as a number of the binary64 format. -/
def chance (n d : Nat) (g : Generator) : Bool × Generator :=
  let bound := match Binary64.ofRatio? n d with
    | some p => p.mantissa * twoTo (p.exponent + 64).toNat / twoTo (-(p.exponent + 64)).toNat
    | none => 0
  let (v, g) := g.next64
  (v < bound, g)

end Generator

end LoanArrears
