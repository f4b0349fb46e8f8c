-- SUMMARY: The seeds of jitter streams: what a stream is started with, and that no two workers of a job share a seed.
import LoanArrears.Random.Jitter
import Mathlib.Data.Nat.Bitwise
import Mathlib.Data.Nat.ModEq
import Mathlib.Data.Nat.Prime.Basic

/-!
# Seeds of jitter streams

The seed of a stream is the seed of the job, folded by exclusive or with a multiple of the stride
that wraps at 64 bits. Folding with one job seed can be undone. So can the multiplication, although
it wraps: the stride is odd, so it has no factor in common with two to the power 64. Hence two seeds
of a job agree exactly when the low 64 bits of the indexes do (`seedOf_eq_iff`), and no two workers
of a job share one.
-/

namespace LoanArrears

namespace JitterStream

/-! ## Multiples of the stride -/

theorem odd_stride : Odd stride := by
  decide

theorem coprime_stride : (twoTo 64).Coprime stride := by
  have htwo : Nat.Coprime 2 stride := Nat.coprime_two_left.2 odd_stride
  exact htwo.pow_left 64

/-- The multiples keep apart what the low bits of the factors tell apart. -/
theorem low_mul_stride_eq_iff {i j : Nat} :
    Generator.low 64 (i * stride) = Generator.low 64 (j * stride) ↔
      Generator.low 64 i = Generator.low 64 j := by
  constructor
  · intro h
    exact Nat.ModEq.cancel_right_of_coprime coprime_stride h
  · intro h
    exact Nat.ModEq.mul_right stride h

/-! ## Seeds -/

theorem seedOf_eq_iff {jobSeed i j : Nat} :
    seedOf jobSeed i = seedOf jobSeed j ↔ Generator.low 64 i = Generator.low 64 j := by
  unfold seedOf
  rw [Nat.xor_right_inj]
  exact low_mul_stride_eq_iff

/-- An index of more than 64 bits would get the seed of another one. -/
example : seedOf 42 (Bound.nat64 + 3) = seedOf 42 3 := by
  decide

theorem seedOf_inj {jobSeed i j : Nat} (hi : i < Bound.nat64) (hj : j < Bound.nat64) :
    seedOf jobSeed i = seedOf jobSeed j ↔ i = j := by
  have hlow : ∀ {n : Nat}, n < Bound.nat64 → Generator.low 64 n = n := Nat.mod_eq_of_lt
  rw [seedOf_eq_iff, hlow hi, hlow hj]

/-- Folding does not leave the 64 bits. -/
theorem seedOf_lt {jobSeed : Nat} (h : jobSeed < Bound.nat64) (index : Nat) :
    seedOf jobSeed index < Bound.nat64 := by
  have hmultiple : Generator.low 64 (index * stride) < twoTo 64 := Nat.mod_lt _ (twoTo_pos 64)
  exact Nat.xor_lt_two_pow (n := 64) h hmultiple

/-! ## Streams -/

/-- A stream whose generator was started with this seed. The seed has 64 bits, so that starting cuts
    nothing off it. -/
structure SeededBy (seed : Nat) (s : JitterStream) : Prop where
  generator_eq : s.generator = .ofSeed seed
  seed_lt : seed < Bound.nat64

theorem SeededBy.named {seed : Nat} {s : JitterStream} (h : s.SeededBy seed) (name : String) :
    (s.named name).SeededBy seed :=
  ⟨h.generator_eq, h.seed_lt⟩

theorem seededBy_new {jobSeed : Nat} (h : jobSeed < Bound.nat64) (index : Nat) :
    (new jobSeed index).SeededBy (seedOf jobSeed index) :=
  ⟨rfl, seedOf_lt h index⟩

theorem seededBy_ofWorker {jobSeed : Nat} (h : jobSeed < Bound.nat64) (worker : Nat) :
    (ofWorker jobSeed worker).SeededBy (seedOf jobSeed worker) :=
  (seededBy_new h worker).named _

/-- The streams of two workers of a job are started with two different numbers of 64 bits, whatever
    the seed of the job and however many workers it has. -/
theorem workers_share_no_seed {jobSeed i j : Nat} (hjob : jobSeed < Bound.nat64)
    (hi : i < Bound.nat64) (hj : j < Bound.nat64) (hne : i ≠ j) :
    (ofWorker jobSeed i).SeededBy (seedOf jobSeed i) ∧
      (ofWorker jobSeed j).SeededBy (seedOf jobSeed j) ∧
      seedOf jobSeed i ≠ seedOf jobSeed j := by
  refine ⟨seededBy_ofWorker hjob i, seededBy_ofWorker hjob j, ?_⟩
  intro hshared
  exact hne ((seedOf_inj hi hj).1 hshared)

/-- The multiples of these two indexes differ in the top bit only. -/
theorem workers_share_no_seed_sample :
    42 < Bound.nat64 ∧ 1 < Bound.nat64 ∧ Bound.int64 + 1 < Bound.nat64 ∧ 1 ≠ Bound.int64 + 1 ∧
      (ofWorker 42 1).SeededBy (seedOf 42 1) ∧
      (ofWorker 42 (Bound.int64 + 1)).SeededBy (seedOf 42 (Bound.int64 + 1)) ∧
      seedOf 42 1 ≠ seedOf 42 (Bound.int64 + 1) := by
  have hjob : 42 < Bound.nat64 := by decide
  have hi : 1 < Bound.nat64 := by decide
  have hj : Bound.int64 + 1 < Bound.nat64 := by decide
  have hne : 1 ≠ Bound.int64 + 1 := by decide
  exact ⟨hjob, hi, hj, hne, workers_share_no_seed hjob hi hj hne⟩

end JitterStream

end LoanArrears
