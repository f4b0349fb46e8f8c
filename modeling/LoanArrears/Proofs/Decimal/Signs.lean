-- SUMMARY: Signs of decimals: rounding a sum or a difference never brings it to zero or across it, whatever the scales.
import LoanArrears.Proofs.Decimal.Cents

/-!
# Signs of decimals

A sum or difference of decimals drops places until its coefficient fits. It drops some only if the
coefficient was too large, and then more than a unit of the last place that is kept is left. So the
sign of the exact result is kept: a sum of amounts that are not negative is positive when one of
them is, and a difference is positive when the first amount is the larger one.
-/

namespace LoanArrears

/-- A quotient that is not below one in size is not rounded to zero or across it. -/
theorem sign_roundHalfEven {n : Int} {d : Nat} (hd : 0 < d) (h : d ≤ n.natAbs) :
    (roundHalfEven n d).sign = n.sign := by
  have hnear := roundHalfEven_near n hd
  generalize roundHalfEven n d = r at hnear ⊢
  rw [Int.mul_assoc] at hnear
  rcases Int.lt_or_gt_of_ne (show n ≠ 0 by omega) with hneg | hpos
  · have hr : r < 0 := by
      refine Int.not_le.1 fun hr => ?_
      have hprod : 0 ≤ (d : Int) * r := Int.mul_nonneg (Int.natCast_nonneg d) hr
      omega
    rw [Int.sign_eq_neg_one_of_neg hneg, Int.sign_eq_neg_one_of_neg hr]
  · have hr : 0 < r := by
      refine Int.not_le.1 fun hr => ?_
      have hprod : (d : Int) * r ≤ 0 :=
        Int.mul_nonpos_of_nonneg_of_nonpos (Int.natCast_nonneg d) hr
      omega
    rw [Int.sign_eq_one_of_pos hpos, Int.sign_eq_one_of_pos hr]

namespace Decimal

variable {a b c : Decimal}

theorem isPositive_iff_sign (a : Decimal) : a.isPositive ↔ a.coeff.sign = 1 := by
  rw [isPositive, decide_eq_true_iff, Int.sign_eq_one_iff_pos]

/-! ## Sums -/

theorem coeff_of_mk? {n : Int} {scale : Nat} (h : mk? n scale = some c) : c.coeff = n := by
  unfold mk? at h
  split at h
  · cases h
    rfl
  · cases h

/-- Dropping places until a number fits keeps its sign. -/
theorem sign_of_fit? {n : Int} {scale : Nat} (hscale : scale ≤ maxScale)
    (h : fit? n scale = some c) : c.coeff.sign = n.sign := by
  unfold fit? at h
  rw [List.range_succ_eq_map, List.findSome?_cons, tenTo_zero, roundHalfEven_one] at h
  split at h
  · next hfirst =>
    cases h
    rw [coeff_of_mk? hfirst]
  · next hfirst =>
    -- Places are dropped, so the coefficient did not fit and is larger than the divisor.
    obtain ⟨dropped, hdropped, hmk⟩ := List.exists_of_findSome?_eq_some h
    have hle : dropped ≤ maxScale := by
      obtain ⟨k, hk, rfl⟩ := List.mem_map.1 hdropped
      exact Nat.le_trans (List.mem_range.1 hk) hscale
    have hlarge : coeffLimit ≤ n.natAbs := by
      refine Nat.not_lt.1 fun hlt => ?_
      rw [mk?_eq_some hlt (Nat.le_trans (Nat.sub_le ..) hscale)] at hfirst
      cases hfirst
    rw [coeff_of_mk? hmk]
    refine sign_roundHalfEven (tenTo_pos _) ?_
    calc tenTo dropped ≤ tenTo maxScale := Nat.pow_le_pow_right (by decide) hle
      _ ≤ coeffLimit := by decide
      _ ≤ n.natAbs := hlarge

theorem sign_coeffAt (a : Decimal) (scale : Nat) : (a.coeffAt scale).sign = a.coeff.sign := by
  rw [coeffAt, Int.sign_mul, Int.sign_natCast_of_ne_zero (Nat.ne_of_gt (tenTo_pos _)), Int.mul_one]

/-- The sum of two decimals has the sign of their sum over a common scale. -/
theorem sign_of_add? (h : a.add? b = some c) :
    c.coeff.sign =
      (a.coeffAt (Nat.max a.scale b.scale) + b.coeffAt (Nat.max a.scale b.scale)).sign := by
  unfold add? at h
  split at h
  · next ha =>
    cases h
    have hzero : a.coeff = 0 := of_decide_eq_true ha
    have hat (scale : Nat) : a.coeffAt scale = 0 := by rw [coeffAt, hzero, Int.zero_mul]
    rw [hat, Int.zero_add, sign_coeffAt]
  · split at h
    · next hb =>
      cases h
      have hzero : b.coeff = 0 := of_decide_eq_true hb
      have hat (scale : Nat) : b.coeffAt scale = 0 := by rw [coeffAt, hzero, Int.zero_mul]
      rw [hat, Int.add_zero, sign_coeffAt]
    · exact sign_of_fit? (Nat.max_le.2 ⟨a.scale_le, b.scale_le⟩) h

/-- A sum of amounts that are not negative is positive when one of them is. -/
theorem isPositive_of_add (ha : a.isNegative = false) (hb : b.isNegative = false)
    (h : a.add b = .ok c) :
    c.isNegative = false ∧ (c.isPositive ↔ a.isPositive ∨ b.isPositive) := by
  have hadd : a.add? b = some c := by
    unfold add at h
    cases hsum : a.add? b with
    | none =>
      rw [hsum] at h
      cases h
    | some d =>
      rw [hsum] at h
      cases h
      rfl
  have hsign := sign_of_add? hadd
  have hsa := sign_coeffAt a (Nat.max a.scale b.scale)
  have hsb := sign_coeffAt b (Nat.max a.scale b.scale)
  generalize a.coeffAt (Nat.max a.scale b.scale) = m at hsign hsa
  generalize b.coeffAt (Nat.max a.scale b.scale) = n at hsign hsb
  have hm : 0 ≤ m := by
    rw [← Int.sign_nonneg_iff, hsa, Int.sign_nonneg_iff]
    simpa [isNegative] using ha
  have hn : 0 ≤ n := by
    rw [← Int.sign_nonneg_iff, hsb, Int.sign_nonneg_iff]
    simpa [isNegative] using hb
  have hc : 0 ≤ c.coeff := by
    rw [← Int.sign_nonneg_iff, hsign, Int.sign_nonneg_iff]
    exact Int.add_nonneg hm hn
  refine ⟨by simpa [isNegative] using hc, ?_⟩
  rw [isPositive_iff_sign, isPositive_iff_sign, isPositive_iff_sign, hsign, ← hsa, ← hsb,
    Int.sign_eq_one_iff_pos, Int.sign_eq_one_iff_pos, Int.sign_eq_one_iff_pos]
  omega

/-! ## Differences -/

/-- Numbers compare like their coefficients over a common scale. -/
theorem lt_iff_coeffAt_lt {scale : Nat} (ha : a.scale ≤ scale) (hb : b.scale ≤ scale) :
    a.lt b ↔ a.coeffAt scale < b.coeffAt scale := by
  have hpos (n : Nat) : (0 : Int) < tenTo n := by exact_mod_cast tenTo_pos n
  have hsplit {n : Nat} (hn : n ≤ scale) : (tenTo n : Int) * tenTo (scale - n) = tenTo scale := by
    have hadd := tenTo_add n (scale - n)
    rw [Nat.add_sub_cancel' hn] at hadd
    exact_mod_cast hadd.symm
  have hleft : a.coeff * tenTo b.scale * (tenTo (scale - a.scale) * tenTo (scale - b.scale)) =
      a.coeffAt scale * tenTo scale := by
    rw [coeffAt, ← hsplit hb]
    ac_rfl
  have hright : b.coeff * tenTo a.scale * (tenTo (scale - a.scale) * tenTo (scale - b.scale)) =
      b.coeffAt scale * tenTo scale := by
    rw [coeffAt, ← hsplit ha]
    ac_rfl
  rw [lt, decide_eq_true_iff,
    ← Int.mul_lt_mul_right (Int.mul_pos (hpos (scale - a.scale)) (hpos (scale - b.scale))),
    hleft, hright, Int.mul_lt_mul_right (hpos scale)]

/-- A difference is positive when the first number is the larger one. -/
theorem isPositive_of_sub? (h : a.sub? b = some c) : c.isPositive ↔ b.lt a := by
  have hsign := sign_of_add? h
  have hneg (scale : Nat) : b.neg.coeffAt scale = -b.coeffAt scale := Int.neg_mul ..
  have hlt : b.lt a ↔ b.coeffAt (Nat.max a.scale b.scale) < a.coeffAt (Nat.max a.scale b.scale) :=
    lt_iff_coeffAt_lt (Nat.le_max_right ..) (Nat.le_max_left ..)
  rw [isPositive_iff_sign, hsign, Int.sign_eq_one_iff_pos, hneg, hlt]
  show 0 < a.coeffAt (Nat.max a.scale b.scale) + -b.coeffAt (Nat.max a.scale b.scale) ↔ _
  omega

/-- A difference with a floor of zero is not negative, and positive when the first number is the
    larger one. -/
theorem isPositive_of_monus (h : a.monus b = .ok c) :
    c.isNegative = false ∧ (c.isPositive ↔ b.lt a) := by
  unfold monus sub at h
  cases hsub : a.sub? b with
  | none =>
    rw [hsub] at h
    cases h
  | some d =>
    rw [hsub] at h
    cases h
    have hd := isPositive_of_sub? hsub
    show (d.max zero).isNegative = false ∧ ((d.max zero).isPositive ↔ b.lt a)
    rw [Decimal.max, lt_zero]
    cases hnegative : d.isNegative with
    | false => exact ⟨hnegative, hd⟩
    | true =>
      have hcoeff : d.coeff < 0 := of_decide_eq_true hnegative
      rw [if_pos rfl]
      refine ⟨rfl, iff_of_false Bool.false_ne_true fun hlt => ?_⟩
      have hpositive : 0 < d.coeff := of_decide_eq_true (hd.2 hlt)
      omega

end Decimal

end LoanArrears
