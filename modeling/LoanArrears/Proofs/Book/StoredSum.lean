-- SUMMARY: Sums of stored numbers: exact as long as they are in range, and out of range for good once they leave it.
import LoanArrears.Proofs.Book.Overflow
import Mathlib.Tactic.WLOG

/-!
# Sums that leave the range

A sum of stored numbers that leaves the range goes on with 53 leading bits. Rounding moves it,
but not back: what leaves the range stays out of it, however the numbers and the sum were rounded.
So a sum of numbers that are not negative is in range only if it is exact (`Stored.StandsFor`), and
a column is exact after an addition only if the sum was in range.
-/

namespace LoanArrears

/-- Rounding a quotient does not depend on its sign. -/
theorem roundHalfEven_neg (n : Int) {d : Nat} (hd : 0 < d) :
    roundHalfEven (-n) d = -roundHalfEven n d := by
  have hpos : (0 : Int) < d := by omega
  have hsplit : (d : Int) * (n / d) + n % d = n := Int.mul_ediv_add_emod n d
  have hlo : 0 ≤ n % d := Int.emod_nonneg n (by omega)
  have hhi : n % d < d := Int.emod_lt_of_pos n hpos
  unfold roundHalfEven
  by_cases hrest : n % d = 0
  · have hneg : (-n) / d = -(n / d) ∧ (-n) % d = 0 := by
      refine (Int.ediv_emod_unique hpos).2 ⟨?_, Int.le_refl 0, hpos⟩
      rw [Int.mul_neg]
      omega
    simp only [hneg.1, hneg.2, hrest]
    rw [if_pos (by omega), if_pos (by omega)]
  · -- The quotient of the opposite is one lower, so the two rests make up a divisor.
    have hneg : (-n) / d = -(n / d) - 1 ∧ (-n) % d = d - n % d := by
      refine (Int.ediv_emod_unique hpos).2 ⟨?_, by omega, by omega⟩
      rw [Int.mul_sub, Int.mul_neg, Int.mul_one]
      omega
    simp only [hneg.1, hneg.2]
    generalize n / d = below
    generalize n % d = rest at hlo hhi hrest
    split <;> split <;> omega

namespace Stored

/-! ## Rounding down -/

/-- A number whose last bits are zeros is kept by rounding, so no larger number is rounded below
    it that drops no more bits. -/
theorem le_round {v q : Int} {k : Nat} (hk : v.natAbs.log2 + 1 - bits ≤ k)
    (h : q * twoTo k ≤ v) : q * twoTo k ≤ round v := by
  unfold round roundBits
  dsimp only
  generalize v.natAbs.log2 + 1 - bits = dropped at hk ⊢
  have hsplit : (twoTo k : Int) = twoTo (k - dropped) * twoTo dropped := by
    have hpow : twoTo (k - dropped) * twoTo dropped = twoTo (k - dropped + dropped) :=
      (Nat.pow_add 2 (k - dropped) dropped).symm
    rw [Nat.sub_add_cancel hk] at hpow
    exact_mod_cast hpow.symm
  rw [hsplit, ← Int.mul_assoc] at h ⊢
  exact Int.mul_le_mul_of_nonneg_right (le_roundHalfEven (twoTo_pos _) h) (Int.natCast_nonneg _)

/-- Powers of two are not crossed downwards. -/
theorem twoTo_le_round {v : Int} {n : Nat} (h : twoTo n ≤ v) : twoTo n ≤ round v := by
  have hne : v.natAbs ≠ 0 := by
    have hpos := twoTo_pos n
    omega
  have hn : n ≤ v.natAbs.log2 := by
    refine (Nat.le_log2 hne).2 ?_
    show twoTo n ≤ v.natAbs
    omega
  have hself : twoTo v.natAbs.log2 ≤ v.natAbs := Nat.log2_self_le hne
  have hmono : twoTo n ≤ twoTo v.natAbs.log2 := Nat.pow_le_pow_right (by decide) hn
  have hdropped : v.natAbs.log2 + 1 - bits ≤ v.natAbs.log2 := by
    unfold bits
    omega
  have hround := le_round (q := 1) hdropped (by omega)
  omega

theorem int64_le_round {v : Int} (h : Bound.int64 ≤ v) : Bound.int64 ≤ round v :=
  twoTo_le_round (n := 63) h

/-- Numbers below half of the range lose nine bits at most. -/
theorem le_round_of_lt_half {v q : Int} (hv : 0 ≤ v) (hlt : v < 4611686018427387904)
    (h : q * 512 ≤ v) : q * 512 ≤ round v := by
  have hdropped : v.natAbs.log2 + 1 - bits ≤ 9 := by
    by_cases hzero : v.natAbs = 0
    · rw [hzero]
      decide
    · have hlog : v.natAbs.log2 < 62 := (Nat.log2_lt hzero).2 (by omega)
      unfold bits
      omega
  exact le_round hdropped h

/-- Numbers in the upper half of the range lose ten bits. -/
theorem round_of_half_le {v : Int} (h : 4611686018427387904 ≤ v) (hlt : v < Bound.int64) :
    round v = roundHalfEven v 1024 * 1024 := by
  unfold Bound.int64 at hlt
  have hlog : v.natAbs.log2 = 62 := by
    refine (Nat.log2_eq_iff (by omega)).2 ⟨?_, ?_⟩ <;> omega
  unfold round roundBits
  rw [hlog]
  rfl

/-- What is nearer to the bound than to the number of 53 bits below it is rounded up to it. -/
theorem int64_le_round_of_near {v : Int} (h : 9223372036854775296 ≤ v) :
    Bound.int64 ≤ round v := by
  by_cases hlt : v < Bound.int64
  · rw [round_of_half_le (by omega) hlt]
    unfold Bound.int64 at hlt ⊢
    unfold roundHalfEven
    dsimp only
    split
    · omega
    · split
      · omega
      · split <;> omega
  · exact int64_le_round (Int.not_lt.1 hlt)

/-- Exact numbers with a sum out of range are added up to a number out of range. -/
theorem int64_le_round_add {x y : Int} (hx : 0 ≤ x) (hy : 0 ≤ y) (hxlt : x < Bound.int64)
    (hylt : y < Bound.int64) (h : Bound.int64 ≤ x + y) :
    Bound.int64 ≤ round (round x + round y) := by
  wlog hle : y ≤ x generalizing x y
  · rw [Int.add_comm (round x)]
    exact this hy hx hylt hxlt (by omega) (by omega)
  have hhalf : 4611686018427387904 ≤ x := by
    unfold Bound.int64 at h
    omega
  by_cases hyhalf : 4611686018427387904 ≤ y
  · have hxround : 4611686018427387904 ≤ round x := twoTo_le_round (n := 62) hhalf
    have hyround : 4611686018427387904 ≤ round y := twoTo_le_round (n := 62) hyhalf
    exact int64_le_round_of_near (by omega)
  · -- What rounding takes off the larger number is within what the smaller one has to spare.
    have hxround := round_of_half_le hhalf hxlt
    have hyround : y / 512 * 512 ≤ round y := le_round_of_lt_half hy (by omega) (by omega)
    unfold Bound.int64 at h
    unfold roundHalfEven at hxround
    dsimp only at hxround
    refine int64_le_round_of_near ?_
    split at hxround
    · omega
    · split at hxround
      · omega
      · split at hxround <;> omega

theorem round_neg_eq (v : Int) : round (-v) = -round v := by
  unfold round roundBits
  simp only [Int.natAbs_neg]
  rw [roundHalfEven_neg v (twoTo_pos _), Int.neg_mul]

/-- Exact numbers with a sum below the range are added up to a number that is no larger than the
    lowest one. -/
theorem round_add_le_neg_int64 {x y : Int} (hx : -Bound.int64 ≤ x) (hy : -Bound.int64 ≤ y)
    (hxneg : x ≤ 0) (hyneg : y ≤ 0) (h : x + y < -Bound.int64) :
    round (round x + round y) ≤ -Bound.int64 := by
  have hround : Bound.int64 ≤ round (round (-x) + round (-y)) := by
    have hxround : 0 ≤ round (-x) := round_nonneg (by omega)
    have hyround : 0 ≤ round (-y) := round_nonneg (by omega)
    by_cases hxlow : x = -Bound.int64
    · have hlarge : Bound.int64 ≤ round (-x) := int64_le_round (by omega)
      exact int64_le_round (by omega)
    by_cases hylow : y = -Bound.int64
    · have hlarge : Bound.int64 ≤ round (-y) := int64_le_round (by omega)
      exact int64_le_round (by omega)
    · exact int64_le_round_add (by omega) (by omega) (by omega) (by omega) (by omega)
  rw [round_neg_eq, round_neg_eq, ← Int.neg_add, round_neg_eq] at hround
  omega

/-! ## Sums -/

/-- The number is the sum, or both are out of range. -/
def StandsFor (a : Stored) (sum : Int) : Prop :=
  (∃ c : Cents, a = .exact c ∧ c.val = sum) ∨ Bound.int64 ≤ a.val ∧ Bound.int64 ≤ sum

theorem StandsFor.lt_iff {a : Stored} {v : Int} (h : a.StandsFor v) :
    a.val < Bound.int64 ↔ v < Bound.int64 := by
  rcases h with ⟨c, rfl, hc⟩ | ⟨ha, hv⟩
  · rw [← hc]
    exact Iff.rfl
  · exact iff_of_false (Int.not_lt.2 ha) (Int.not_lt.2 hv)

theorem StandsFor.val_nonneg {a : Stored} {v : Int} (h : a.StandsFor v) (hv : 0 ≤ v) :
    0 ≤ a.val := by
  rcases h with ⟨c, rfl, hc⟩ | ⟨ha, -⟩
  · show 0 ≤ c.val
    omega
  · exact Int.le_trans (Int.natCast_nonneg _) ha

theorem not_isExact_of_int64_le {a : Stored} (h : Bound.int64 ≤ a.val) : ¬ a.isExact := by
  intro hexact
  obtain ⟨c, rfl⟩ := exists_of_isExact hexact
  have hlt := c.lt_hi
  have hval : (Stored.exact c).val = c.val := rfl
  unfold Bound.int64 at h
  omega

/-- A sum is rounded unless both numbers are exact. -/
theorem val_add_of_not_isExact {a b : Stored} (h : ¬ a.isExact ∨ ¬ b.isExact) :
    (a.add b).val = round (round a.val + round b.val) := by
  cases a with
  | approx v => rfl
  | exact x =>
    cases b with
    | approx w => rfl
    | exact y =>
      have hexact : (exact x).isExact ∧ (exact y).isExact := ⟨rfl, rfl⟩
      exact absurd hexact (not_and_or.2 h)

/-- Adding to a number out of range gives one. -/
theorem int64_le_val_add {a b : Stored} (ha : 0 ≤ a.val) (hb : 0 ≤ b.val)
    (h : Bound.int64 ≤ a.val ∨ Bound.int64 ≤ b.val) : Bound.int64 ≤ (a.add b).val := by
  rw [val_add_of_not_isExact (h.imp not_isExact_of_int64_le not_isExact_of_int64_le)]
  apply int64_le_round
  have haround := round_nonneg ha
  have hbround := round_nonneg hb
  rcases h with h | h
  · have hround := int64_le_round h
    omega
  · have hround := int64_le_round h
    omega

theorem StandsFor.add {a b : Stored} {v w : Int} (ha : a.StandsFor v) (hb : b.StandsFor w)
    (hv : 0 ≤ v) (hw : 0 ≤ w) : (a.add b).StandsFor (v + w) := by
  have hanonneg := ha.val_nonneg hv
  have hbnonneg := hb.val_nonneg hw
  rcases ha with ⟨x, rfl, rfl⟩ | ⟨ha, hvlarge⟩
  · rcases hb with ⟨y, rfl, rfl⟩ | ⟨hb, hwlarge⟩
    · cases hc : Cents.ofInt? (x.val + y.val) with
      | some c => exact .inl ⟨c, add_exact hc, Cents.val_of_ofInt? hc⟩
      | none =>
        have hlarge : (Bound.int64 : Int) ≤ x.val + y.val := by
          have hxlo := x.lo_le
          have hylo := y.lo_le
          unfold Cents.ofInt? at hc
          split at hc
          · cases hc
          · unfold Bound.int64
            omega
        have hval : (Stored.add (.exact x) (.exact y)).val = round (round x.val + round y.val) := by
          simp only [Stored.add, combine, hc, Option.map_none, Option.getD_none, val]
        refine .inr ⟨?_, hlarge⟩
        rw [hval]
        exact int64_le_round_add hv hw x.lt_hi y.lt_hi hlarge
    · exact .inr ⟨int64_le_val_add hanonneg hbnonneg (.inr hb), by omega⟩
  · exact .inr ⟨int64_le_val_add hanonneg hbnonneg (.inl ha), by omega⟩

/-! ## Numbers in columns -/

/-- The number is as a column keeps it. -/
def IsSettled (a : Stored) : Prop :=
  a.settle = a

theorem isSettled_exact (c : Cents) : (Stored.exact c).IsSettled := rfl

theorem isSettled_settle (a : Stored) : a.settle.IsSettled := by
  unfold IsSettled
  cases a with
  | exact c => rfl
  | approx v =>
    by_cases hv : v = -Bound.int64
    · simp [settle, hv]
    · cases hc : Cents.ofInt? v with
      | none => simp [settle, hv, hc]
      | some c => simp [settle, hv, hc]

/-- A number in a column that is not negative is exact when it is in range. -/
theorem IsSettled.exists_of_lt {a : Stored} (h : a.IsSettled) (hnonneg : 0 ≤ a.val)
    (hlt : a.val < Bound.int64) : ∃ c, a = .exact c := by
  cases a with
  | exact c => exact ⟨c, rfl⟩
  | approx v =>
    have hnonneg' : 0 ≤ v := hnonneg
    have hlt' : v < Bound.int64 := hlt
    unfold Bound.int64 at hlt'
    have hc : Cents.ofInt? v = some ⟨v, by omega, hlt'⟩ := dif_pos ⟨by omega, hlt'⟩
    have hne : v ≠ -Bound.int64 := by
      unfold Bound.int64
      omega
    unfold IsSettled settle at h
    simp only [hne, if_false, hc, Option.map_some, Option.getD_some] at h
    cases h

theorem IsSettled.standsFor {a : Stored} (h : a.IsSettled) (hnonneg : 0 ≤ a.val) :
    a.StandsFor a.val := by
  by_cases hlt : a.val < Bound.int64
  · obtain ⟨c, rfl⟩ := h.exists_of_lt hnonneg hlt
    exact .inl ⟨c, rfl, rfl⟩
  · exact .inr ⟨Int.not_lt.1 hlt, Int.not_lt.1 hlt⟩

/-- A column is exact after an addition only if the sum is in range. -/
theorem ofInt?_of_isExact_settle {x y : Cents}
    (h : ((Stored.exact x).add (.exact y)).settle.isExact) :
    ∃ sum, Cents.ofInt? (x.val + y.val) = some sum := by
  cases hsum : Cents.ofInt? (x.val + y.val) with
  | some sum => exact ⟨sum, rfl⟩
  | none =>
    exfalso
    have hadd : (Stored.exact x).add (.exact y) = .approx (round (round x.val + round y.val)) := by
      simp only [Stored.add, combine, hsum, Option.map_none, Option.getD_none, val]
    have hout : (Bound.int64 : Int) ≤ round (round x.val + round y.val) ∨
        round (round x.val + round y.val) ≤ -Bound.int64 := by
      have hxlo := x.lo_le
      have hylo := y.lo_le
      have hxhi := x.lt_hi
      have hyhi := y.lt_hi
      unfold Cents.ofInt? at hsum
      split at hsum
      · cases hsum
      -- Numbers in range leave it only with a sum of the same sign.
      · by_cases hnonneg : 0 ≤ x.val ∧ 0 ≤ y.val
        · exact .inl (int64_le_round_add hnonneg.1 hnonneg.2 hxhi hyhi
            (by unfold Bound.int64; omega))
        · exact .inr (round_add_le_neg_int64 hxlo hylo (by omega) (by omega)
            (by unfold Bound.int64; omega))
    rw [hadd] at h
    generalize round (round x.val + round y.val) = v at h hout
    have hne : Cents.ofInt? v = none ∨ v = -Bound.int64 := by
      unfold Cents.ofInt?
      unfold Bound.int64 at hout ⊢
      by_cases hv : v = -(9223372036854775808 : Nat)
      · exact .inr hv
      · exact .inl (dif_neg (by omega))
    unfold settle at h
    rcases hne with hnone | rfl
    · simp [hnone, isExact] at h
    · simp [isExact] at h

end Stored

/-- The numbers of the buckets added up, whatever the range. -/
def Buckets.exactSum (b : Buckets Stored) : Int :=
  b.principal.val + b.interest.val + b.fee.val + b.penalty.val

/-- Buckets that are not negative add up to their sum, or out of range like it. -/
theorem Buckets.standsFor_storedSum {b : Buckets Stored} (h : ∀ i, (b.get i).IsSettled)
    (hnonneg : ∀ i, 0 ≤ (b.get i).val) : b.storedSum.StandsFor b.exactSum := by
  have hstands (i : Bucket) : (b.get i).StandsFor (b.get i).val := (h i).standsFor (hnonneg i)
  have hp := hnonneg .principal
  have hi := hnonneg .interest
  have hf := hnonneg .fee
  have htwo := (hstands .principal).add (hstands .interest) hp hi
  have hthree := htwo.add (hstands .fee) (Int.add_nonneg hp hi) hf
  exact hthree.add (hstands .penalty) (Int.add_nonneg (Int.add_nonneg hp hi) hf)
    (hnonneg .penalty)

end LoanArrears
