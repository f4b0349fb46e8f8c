-- SUMMARY: Decimals of bounded size: sums of them are rounded but never overflow, and one that fits in cents has such a bound.
import LoanArrears.Proofs.Buckets
import LoanArrears.Proofs.Decimal.Cents

/-!
# Decimals of bounded size

A sum of decimals overflows only when its integer part is too large: places that do not fit
are rounded away. So decimals with a whole bound (`Decimal.AtMost`) add up without a crash as
long as the sum of their bounds is below the largest coefficient. Amounts that fit in cents
are of that kind, whatever places they are written with.
-/

namespace LoanArrears

/-- A quotient that is at most `k` is rounded to at most `k`. -/
theorem natAbs_roundHalfEven_le_of_le {n : Int} {d k : Nat} (hd : 0 < d) (h : n.natAbs ≤ k * d) :
    (roundHalfEven n d).natAbs ≤ k := by
  have hnear := roundHalfEven_near n hd
  generalize roundHalfEven n d = r at hnear ⊢
  rw [Int.mul_assoc] at hnear
  by_contra hlarge
  have hr : (d : Int) * (k + 1) ≤ d * r.natAbs :=
    Int.mul_le_mul_of_nonneg_left (by omega) (by omega)
  have hn : (n.natAbs : Int) ≤ d * k := by
    rw [Int.mul_comm]
    exact_mod_cast h
  rw [Int.mul_add, Int.mul_one] at hr
  rcases Int.natAbs_eq r with hsign | hsign
  · rw [← hsign] at hr
    omega
  · rw [show (r.natAbs : Int) = -r by omega, Int.mul_neg] at hr
    omega

/-- A quotient that is rounded to at most `k` is at most `k + 1`. -/
theorem natAbs_le_of_roundHalfEven_le {n : Int} {d k : Nat} (hd : 0 < d)
    (h : (roundHalfEven n d).natAbs ≤ k) : n.natAbs ≤ (k + 1) * d := by
  have hnear := roundHalfEven_near n hd
  generalize roundHalfEven n d = r at hnear h
  rw [Int.mul_assoc] at hnear
  have hr : (d : Int) * r.natAbs ≤ d * k := Int.mul_le_mul_of_nonneg_left (by omega) (by omega)
  have hpos : 0 ≤ (d : Int) * r.natAbs := Int.mul_nonneg (by omega) (by omega)
  have hn : (n.natAbs : Int) ≤ d * k + d := by
    rcases Int.natAbs_eq r with hsign | hsign
    · rw [← hsign] at hr hpos
      omega
    · rw [show (r.natAbs : Int) = -r by omega, Int.mul_neg] at hr hpos
      omega
  rw [Nat.mul_comm, Nat.mul_succ]
  exact_mod_cast hn

namespace Decimal

/-- The number is at most `n`, whichever its sign. -/
def AtMost (a : Decimal) (n : Nat) : Prop :=
  a.coeff.natAbs ≤ n * tenTo a.scale

namespace AtMost

variable {a b : Decimal} {m n : Nat}

protected theorem mono (ha : a.AtMost m) (h : m ≤ n) : a.AtMost n :=
  Nat.le_trans ha (Nat.mul_le_mul_right _ h)

theorem natAbs_coeffAt_le (ha : a.AtMost n) {scale : Nat} (h : a.scale ≤ scale) :
    (a.coeffAt scale).natAbs ≤ n * tenTo scale := by
  have hsplit : tenTo scale = tenTo a.scale * tenTo (scale - a.scale) := by
    rw [← tenTo_add, Nat.add_sub_cancel' h]
  rw [coeffAt, Int.natAbs_mul, Int.natAbs_natCast, hsplit, ← Nat.mul_assoc]
  exact Nat.mul_le_mul_right _ ha

end AtMost

/-! ## Sums -/

/-- A number whose integer part fits is found some place, and keeps its bound there. -/
theorem exists_fit?_of_le {v : Int} {scale n : Nat} (h : v.natAbs ≤ n * tenTo scale)
    (hn : n < coeffLimit) (hscale : scale ≤ maxScale) :
    ∃ c, fit? v scale = some c ∧ c.AtMost n := by
  have hbound {dropped : Nat} (hdropped : dropped ≤ scale) :
      (roundHalfEven v (tenTo dropped)).natAbs ≤ n * tenTo (scale - dropped) := by
    refine natAbs_roundHalfEven_le_of_le (tenTo_pos dropped) ?_
    rw [Nat.mul_assoc, ← tenTo_add, Nat.sub_add_cancel hdropped]
    exact h
  cases hfit : fit? v scale with
  | none =>
    -- Without any places the number is at most `n`.
    have hlast := List.findSome?_eq_none_iff.1 hfit scale (by simp)
    have hle := hbound (Nat.le_refl scale)
    rw [Nat.sub_self, tenTo_zero, Nat.mul_one] at hle
    rw [mk?_eq_some (Nat.lt_of_le_of_lt hle hn) (by omega)] at hlast
    cases hlast
  | some c =>
    refine ⟨c, rfl, ?_⟩
    obtain ⟨dropped, hdropped, hmk⟩ := List.exists_of_findSome?_eq_some hfit
    unfold mk? at hmk
    split at hmk
    · cases hmk
      exact hbound (by have := List.mem_range.1 hdropped; omega)
    · cases hmk

namespace AtMost

variable {a b : Decimal} {m n : Nat}

theorem exists_add? (ha : a.AtMost m) (hb : b.AtMost n) (h : m + n < coeffLimit) :
    ∃ c, a.add? b = some c ∧ c.AtMost (m + n) := by
  unfold add?
  split
  · exact ⟨b, rfl, hb.mono (Nat.le_add_left n m)⟩
  split
  · exact ⟨a, rfl, ha.mono (Nat.le_add_right m n)⟩
  · refine exists_fit?_of_le ?_ h (Nat.max_le.2 ⟨a.scale_le, b.scale_le⟩)
    rw [Nat.add_mul]
    exact Nat.le_trans (Int.natAbs_add_le _ _) (Nat.add_le_add
      (ha.natAbs_coeffAt_le (Nat.le_max_left ..)) (hb.natAbs_coeffAt_le (Nat.le_max_right ..)))

theorem exists_add (ha : a.AtMost m) (hb : b.AtMost n) (h : m + n < coeffLimit) :
    ∃ c, a.add b = .ok c ∧ c.AtMost (m + n) := by
  obtain ⟨c, hc, hbound⟩ := ha.exists_add? hb h
  refine ⟨c, ?_, hbound⟩
  rw [add, hc]
  rfl

end AtMost

/-! ## Amounts that fit in cents -/

/-- Zeros behind a number never make its coefficient smaller. -/
theorem natAbs_coeff_le_widenTo (a : Decimal) (places : Nat) :
    a.coeff.natAbs ≤ (a.widenTo places).coeff.natAbs := by
  obtain ⟨added, hadded⟩ := exists_coeff_widenTo a places
  rw [hadded, Int.natAbs_mul, Int.natAbs_natCast]
  exact Nat.le_mul_of_pos_right _ (tenTo_pos added)

/-- What is rounded to places is no larger than the result and one more. -/
theorem atMost_of_roundTo_le {a : Decimal} {places n : Nat}
    (h : (a.roundTo places).coeff.natAbs ≤ n) : a.AtMost (n + 1) := by
  unfold roundTo at h
  split at h
  · refine Nat.le_trans h ?_
    exact Nat.le_trans (Nat.le_succ n) (Nat.le_mul_of_pos_right _ (tenTo_pos _))
  · next hplaces =>
    refine Nat.le_trans (natAbs_le_of_roundHalfEven_le (tenTo_pos _) h) ?_
    refine Nat.mul_le_mul_left _ ?_
    exact Nat.pow_le_pow_right (by decide) (Nat.sub_le ..)

/-- What fits in cents is no larger than the cents, rounding aside. -/
theorem atMost_of_toCents_eq_ok {a : Decimal} {c : Cents} (h : a.toCents = .ok c) :
    a.AtMost (Bound.int64 + 1) := by
  unfold toCents at h
  split at h
  · next c hcents =>
    have hlo := c.lo_le
    have hhi := c.lt_hi
    have hcoeff : ((a.roundTo Cents.places).widenTo Cents.places).coeff.natAbs ≤ Bound.int64 := by
      rw [← Cents.val_of_ofInt? hcents]
      unfold Bound.int64
      omega
    exact atMost_of_roundTo_le (Nat.le_trans (natAbs_coeff_le_widenTo _ _) hcoeff)
  · cases h

end Decimal

/-- Amounts that fit in cents add up without a crash. -/
theorem Amounts.exists_total_of_toCents {b : Amounts} {c : Buckets Cents}
    (h : b.toCents = .ok c) : ∃ d, b.total = .ok d := by
  have hbound (i : Bucket) : (b.get i).AtMost (Bound.int64 + 1) :=
    Decimal.atMost_of_toCents_eq_ok (Buckets.mapM_eq_ok_iff.1 h i)
  obtain ⟨d₁, hd₁, h₁⟩ := (hbound .principal).exists_add (hbound .interest) (by decide)
  obtain ⟨d₂, hd₂, h₂⟩ := h₁.exists_add (hbound .fee) (by decide)
  obtain ⟨d₃, hd₃, -⟩ := h₂.exists_add (hbound .penalty) (by decide)
  refine ⟨d₃, ?_⟩
  simp only [Buckets.get] at hd₁ hd₂ hd₃
  simp only [Amounts.total, hd₁, bind, Except.bind, hd₂, hd₃]

end LoanArrears
