-- SUMMARY: Decimals that are whole numbers of cents: comparisons, sums and differences of them are those of the numbers.
import LoanArrears.Buckets
import LoanArrears.Error

/-!
# Decimals of cents

Amounts come out of the tables as decimals of two places, and zero is also written without
places. On these the decimal operations are those of integers, and as long as a result stays
below the largest coefficient nothing is rounded and nothing crashes.
-/

namespace LoanArrears

/-- A quotient is not rounded below a whole number that it is not below. -/
theorem le_roundHalfEven {n q : Int} {d : Nat} (hd : 0 < d) (h : q * d ≤ n) :
    q ≤ roundHalfEven n d := by
  have hq : q ≤ n / d := (Int.le_ediv_iff_mul_le (Int.natCast_pos.2 hd)).2 h
  unfold roundHalfEven
  dsimp only
  split
  · exact hq
  · split
    · omega
    · split <;> omega

namespace Decimal

/-- The decimal is that many cents: it has the places of cents, or it is a zero. -/
def IsCents (a : Decimal) (v : Int) : Prop :=
  a.coeff = v ∧ (a.scale = Cents.places ∨ v = 0)

theorem isCents_ofCents (c : Cents) : (ofCents c).IsCents c.val :=
  ⟨rfl, .inl rfl⟩

theorem isCents_zero : zero.IsCents 0 :=
  ⟨rfl, .inr rfl⟩

/-- Widening adds zeros behind the coefficient, and nothing else. -/
theorem exists_coeff_widenTo (a : Decimal) (places : Nat) :
    ∃ added, (a.widenTo places).coeff = a.coeff * tenTo added := by
  unfold widenTo
  dsimp only
  cases hwider : (List.range (places - a.scale + 1)).reverse.findSome? fun added =>
      mk? (a.coeff * tenTo added) (a.scale + added) with
  | none => exact ⟨0, by simp [tenTo_zero]⟩
  | some wider =>
    obtain ⟨added, -, hmk⟩ := List.exists_of_findSome?_eq_some hwider
    unfold mk? at hmk
    split at hmk
    · cases hmk
      exact ⟨added, rfl⟩
    · cases hmk

/-- The cents of an amount are its coefficient at their places, with zeros added. -/
theorem exists_val_of_toCents {a : Decimal} {c : Cents} (h : a.toCents = .ok c) :
    ∃ added, c.val = (a.roundTo Cents.places).coeff * tenTo added := by
  unfold toCents toCents? at h
  split at h
  · next c' hc =>
    cases h
    rw [Cents.val_of_ofInt? hc]
    exact exists_coeff_widenTo _ _
  · cases h

/-- An amount that is not negative is not brought to negative cents. -/
theorem val_nonneg_of_toCents {a : Decimal} {c : Cents} (h : a.toCents = .ok c)
    (ha : a.isNegative = false) : 0 ≤ c.val := by
  have hcoeff : 0 ≤ a.coeff := by simpa [isNegative] using ha
  have hround : 0 ≤ (a.roundTo Cents.places).coeff := by
    unfold roundTo
    split
    · exact hcoeff
    · exact le_roundHalfEven (tenTo_pos _) (by simpa using hcoeff)
  obtain ⟨added, hadded⟩ := exists_val_of_toCents h
  rw [hadded]
  exact Int.mul_nonneg hround (Int.natCast_nonneg _)

theorem val_eq_zero_of_toCents {a : Decimal} {c : Cents} (h : a.toCents = .ok c)
    (ha : a.isZero) : c.val = 0 := by
  have hcoeff : a.coeff = 0 := by simpa [isZero] using ha
  have hround : (a.roundTo Cents.places).coeff = 0 := by
    unfold roundTo
    split
    · exact hcoeff
    · have hle := roundHalfEven_natAbs_le a.coeff (tenTo_pos (a.scale - Cents.places))
      refine Int.natAbs_eq_zero.1 (Nat.le_zero.1 (Nat.le_trans hle ?_))
      simp [hcoeff]
  obtain ⟨added, hadded⟩ := exists_val_of_toCents h
  rw [hadded, hround, Int.zero_mul]

namespace IsCents

variable {a b : Decimal} {v w : Int}

/-! ## Comparison -/

theorem isZero_iff (ha : a.IsCents v) : a.isZero ↔ v = 0 := by
  rw [isZero, ha.1, decide_eq_true_iff]

theorem isPositive_iff (ha : a.IsCents v) : a.isPositive ↔ 0 < v := by
  rw [isPositive, ha.1, decide_eq_true_iff]

theorem isNegative_iff (ha : a.IsCents v) : a.isNegative ↔ v < 0 := by
  rw [isNegative, ha.1, decide_eq_true_iff]

theorem lt_iff (ha : a.IsCents v) (hb : b.IsCents w) : a.lt b ↔ v < w := by
  have hpos (n : Nat) : (0 : Int) < tenTo n := by exact_mod_cast tenTo_pos n
  rw [lt, decide_eq_true_iff, ha.1, hb.1]
  rcases ha.2 with hsa | rfl
  · rcases hb.2 with hsb | rfl
    · rw [hsa, hsb]
      exact Int.mul_lt_mul_right (hpos _)
    · have hzero : (0 : Int) * tenTo a.scale = 0 * tenTo b.scale := by
        rw [Int.zero_mul, Int.zero_mul]
      rw [hzero]
      exact Int.mul_lt_mul_right (hpos _)
  · have hzero : (0 : Int) * tenTo b.scale = 0 * tenTo a.scale := by
      rw [Int.zero_mul, Int.zero_mul]
    rw [hzero]
    exact Int.mul_lt_mul_right (hpos _)

theorem le_iff (ha : a.IsCents v) (hb : b.IsCents w) : a.le b ↔ v ≤ w := by
  rw [le, Bool.not_eq_true', Bool.eq_false_iff, Ne, lt_iff hb ha, Int.not_lt]

protected theorem eqv (ha : a.IsCents v) (hb : b.IsCents v) : a.eqv b := by
  rw [Decimal.eqv, decide_eq_true_iff, ha.1, hb.1]
  by_cases hv : v = 0
  · rw [hv, Int.zero_mul, Int.zero_mul]
  · rw [ha.2.resolve_right hv, hb.2.resolve_right hv]

theorem eqv_ofCents {c : Cents} (ha : a.IsCents c.val) : (ofCents c).eqv a :=
  (isCents_ofCents c).eqv ha

/-! ## Sums and differences -/

protected theorem neg (ha : a.IsCents v) : a.neg.IsCents (-v) := by
  refine ⟨congrArg (-·) ha.1, ?_⟩
  rcases ha.2 with hs | rfl
  · exact .inl hs
  · exact .inr Int.neg_zero

theorem coeffAt_places (ha : a.IsCents v) (hv : v ≠ 0) : a.coeffAt Cents.places = v := by
  have hs : a.scale = Cents.places := ha.2.resolve_right hv
  rw [coeffAt, hs, ha.1, Nat.sub_self, tenTo_zero]
  exact Int.mul_one v

theorem exists_add? (ha : a.IsCents v) (hb : b.IsCents w) (h : (v + w).natAbs < coeffLimit) :
    ∃ c, a.add? b = some c ∧ c.IsCents (v + w) := by
  unfold add?
  by_cases hv : v = 0
  · rw [if_pos (ha.isZero_iff.2 hv)]
    refine ⟨b, rfl, ?_⟩
    rw [hv, Int.zero_add]
    exact hb
  rw [if_neg (mt ha.isZero_iff.1 hv)]
  by_cases hw : w = 0
  · rw [if_pos (hb.isZero_iff.2 hw)]
    refine ⟨a, rfl, ?_⟩
    rw [hw, Int.add_zero]
    exact ha
  rw [if_neg (mt hb.isZero_iff.1 hw)]
  have hscale : Nat.max a.scale b.scale = Cents.places := by
    rw [ha.2.resolve_right hv, hb.2.resolve_right hw]
    rfl
  simp only [hscale, ha.coeffAt_places hv, hb.coeffAt_places hw]
  exact ⟨_, fit?_eq_some h (by decide), rfl, .inl rfl⟩

theorem exists_add (ha : a.IsCents v) (hb : b.IsCents w) (h : (v + w).natAbs < coeffLimit) :
    ∃ c, a.add b = .ok c ∧ c.IsCents (v + w) := by
  obtain ⟨c, hc, hcents⟩ := ha.exists_add? hb h
  refine ⟨c, ?_, hcents⟩
  rw [add, hc]
  rfl

theorem exists_sub (ha : a.IsCents v) (hb : b.IsCents w) (h : (v - w).natAbs < coeffLimit) :
    ∃ c, a.sub b = .ok c ∧ c.IsCents (v - w) := by
  rw [Int.sub_eq_add_neg] at h ⊢
  obtain ⟨c, hc, hcents⟩ := ha.exists_add? hb.neg h
  refine ⟨c, ?_, hcents⟩
  rw [sub, sub?, hc]
  rfl

theorem exists_monus (ha : a.IsCents v) (hb : b.IsCents w) (h : (v - w).natAbs < coeffLimit) :
    ∃ c, a.monus b = .ok c ∧ c.IsCents (v - w).toNat := by
  obtain ⟨c, hc, hcents⟩ := ha.exists_sub hb h
  refine ⟨c.max zero, ?_, ?_⟩
  · rw [monus, hc]
    rfl
  · unfold Decimal.max
    by_cases hneg : v - w < 0
    · rw [if_pos ((hcents.lt_iff isCents_zero).2 hneg), Int.toNat_of_nonpos (Int.le_of_lt hneg)]
      exact isCents_zero
    · rw [if_neg (mt (hcents.lt_iff isCents_zero).1 hneg), Int.toNat_of_nonneg (Int.not_lt.1 hneg)]
      exact hcents

/-! ## Storing -/

theorem roundTo_places (ha : a.IsCents v) : (a.roundTo Cents.places).IsCents v := by
  unfold roundTo
  split
  · exact ha
  · next hs =>
    have hv : v = 0 := ha.2.resolve_left fun h => hs (Nat.le_of_eq h)
    refine ⟨?_, .inl rfl⟩
    simp [ha.1, hv, roundHalfEven, tenTo_pos]

theorem coeff_widenTo_places (ha : a.IsCents v) : (a.widenTo Cents.places).coeff = v := by
  by_cases hv : v = 0
  · obtain ⟨added, hadded⟩ := exists_coeff_widenTo a Cents.places
    rw [hadded, ha.1, hv, Int.zero_mul]
  · have hs : a.scale = Cents.places := ha.2.resolve_right hv
    have hlt : v.natAbs < coeffLimit := ha.1 ▸ a.coeff_lt
    simp [widenTo, hs, ha.1, mk?_eq_some hlt (show Cents.places ≤ maxScale by decide)]

/-- Bringing cents to cents does not round. -/
theorem toCents?_eq (ha : a.IsCents v) : a.toCents? = Cents.ofInt? v := by
  rw [toCents?, ha.roundTo_places.coeff_widenTo_places]

end IsCents

end Decimal

end LoanArrears
