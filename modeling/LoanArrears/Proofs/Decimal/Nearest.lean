-- SUMMARY: Amounts to the nearest cent: the cents of a decimal are the nearest integer to a hundred times its value, a tie going to the even one.
import LoanArrears.Proofs.Decimal.Bounded
import Mathlib.Algebra.Order.Field.Rat
import Mathlib.Tactic.FieldSimp
import Mathlib.Tactic.Linarith
import Mathlib.Tactic.Ring

/-!
# Amounts to the nearest cent

An amount is brought to cents in two steps: it is rounded to two places, and then zeros are added
up to two places. The second step stops short where the coefficient would become too large, but
such an amount is out of the range of cents anyway. So the cents are the integer nearest to a
hundred times the value of the amount (`IsNearestEven`), and there are none exactly if that
integer is out of range.
-/

namespace LoanArrears

/-! ## Nearest integers -/

/-- The integer is nearest to the number, and it is even if there are two such integers. -/
structure IsNearestEven (x : ℚ) (n : ℤ) : Prop where
  near : |x - n| ≤ 1 / 2
  tie : |x - n| = 1 / 2 → Even n

namespace IsNearestEven

variable {x y : ℚ} {m n : ℤ}

theorem intCast (n : ℤ) : IsNearestEven n n where
  near := by simp
  tie h := by simp at h

/-- Smaller numbers have no larger nearest integers. -/
theorem le (hm : IsNearestEven x m) (hn : IsNearestEven y n) (hxy : x ≤ y) : m ≤ n := by
  by_contra hlt
  have hstep : (n : ℚ) + 1 ≤ m := by exact_mod_cast Int.not_le.1 hlt
  have hx := abs_le.1 hm.near
  have hy := abs_le.1 hn.near
  -- Both numbers are half-way between the two integers, so both of these are even.
  have hxtie : x - m = -(1 / 2) := by linarith
  have hytie : y - n = 1 / 2 := by linarith
  have hmeven : Even m := hm.tie (by rw [hxtie]; norm_num)
  have hneven : Even n := hn.tie (by rw [hytie]; norm_num)
  have hsucc : (m : ℚ) = n + 1 := by linarith
  have heq : m = n + 1 := by exact_mod_cast hsucc
  rw [heq, Int.even_add_one] at hmeven
  exact hmeven hneven

theorem unique (hm : IsNearestEven x m) (hn : IsNearestEven x n) : m = n :=
  Int.le_antisymm (hm.le hn le_rfl) (hn.le hm le_rfl)

end IsNearestEven

/-- A quotient half-way between two integers is rounded to the even one. -/
theorem even_roundHalfEven {n : Int} {d : Nat} (hd : 0 < d)
    (h : 2 * n - 2 * d * roundHalfEven n d = d ∨ 2 * n - 2 * d * roundHalfEven n d = -d) :
    Even (roundHalfEven n d) := by
  have hsplit : (d : Int) * (n / d) + n % d = n := Int.mul_ediv_add_emod n d
  have hlo : 0 ≤ n % d := Int.emod_nonneg n (by omega)
  have hhi : n % d < d := Int.emod_lt_of_pos n (by omega)
  have hup : (d : Int) * (n / d + 1) = d * (n / d) + d := by ring
  rw [Int.even_iff]
  unfold roundHalfEven at h ⊢
  simp only [Int.mul_assoc] at h ⊢
  split at h
  · omega
  · split at h
    · omega
    · split at h <;> omega

theorem isNearestEven_roundHalfEven (n : Int) {d : Nat} (hd : 0 < d) :
    IsNearestEven (n / d) (roundHalfEven n d) := by
  have hpos : (0 : ℚ) < d := by exact_mod_cast hd
  obtain ⟨hlo, hhi⟩ := roundHalfEven_near n hd
  have heven := @even_roundHalfEven n d hd
  generalize roundHalfEven n d = r at hlo hhi heven ⊢
  have hdiff : (n : ℚ) / d - r = (2 * n - 2 * d * r) / (2 * d) := by
    field_simp
  have hlo' : (2 * n : ℚ) - d ≤ 2 * d * r := by exact_mod_cast hlo
  have hhi' : (2 * d : ℚ) * r ≤ 2 * n + d := by exact_mod_cast hhi
  constructor
  · rw [hdiff, abs_le, le_div_iff₀ (by linarith), div_le_iff₀ (by linarith)]
    constructor <;> linarith
  · intro htie
    rw [hdiff] at htie
    apply heven
    rcases eq_or_eq_neg_of_abs_eq htie with h | h
    · left
      rw [div_eq_iff (by linarith)] at h
      have hint : (2 * n : ℚ) - 2 * d * r = d := by linarith
      exact_mod_cast hint
    · right
      rw [div_eq_iff (by linarith)] at h
      have hint : (2 * n : ℚ) - 2 * d * r = -d := by linarith
      exact_mod_cast hint

/-! ## The range of cents -/

namespace Cents

/-- A number of cents that fits in 64 bits with a sign. -/
def InRange (v : Int) : Prop :=
  -(Bound.int64 : Int) ≤ v ∧ v < Bound.int64

theorem exists_of_inRange {v : Int} (h : InRange v) : ∃ c, ofInt? v = some c :=
  ⟨⟨v, h.1, h.2⟩, dif_pos h⟩

theorem ofInt?_eq_none_iff {v : Int} : ofInt? v = none ↔ ¬InRange v := by
  constructor
  · intro hnone h
    obtain ⟨c, hc⟩ := exists_of_inRange h
    rw [hnone] at hc
    cases hc
  · exact fun h => dif_neg h

theorem not_inRange_of_lt {v : Int} (h : Bound.int64 < v.natAbs) : ¬InRange v := by
  unfold InRange
  omega

end Cents

/-! ## Values of decimals -/

namespace Decimal

/-- The number that the decimal stands for. -/
def value (a : Decimal) : ℚ :=
  a.coeff / tenTo a.scale

/-- The cents of the amount, whatever their range: rounded, a half going to the even cent. -/
def nearestCents (a : Decimal) : Int :=
  roundHalfEven (a.coeff * tenTo Cents.places) (tenTo a.scale)

theorem isNearestEven_nearestCents (a : Decimal) :
    IsNearestEven (100 * a.value) a.nearestCents := by
  have hnearest := isNearestEven_roundHalfEven (a.coeff * tenTo Cents.places) (tenTo_pos a.scale)
  have hvalue : 100 * a.value = ((a.coeff * tenTo Cents.places : Int) : ℚ) / tenTo a.scale := by
    have hplaces : ((tenTo Cents.places : Nat) : ℚ) = 100 := by norm_cast
    rw [value, Int.cast_mul, Int.cast_natCast, hplaces]
    ring
  rw [hvalue]
  exact hnearest

/-! ## The two steps -/

/-- Rounding to two places leaves the nearest cents. -/
theorem coeff_roundTo_places {a : Decimal} (h : Cents.places < a.scale) :
    (a.roundTo Cents.places).coeff = a.nearestCents := by
  have hround : (a.roundTo Cents.places).coeff =
      roundHalfEven a.coeff (tenTo (a.scale - Cents.places)) := by
    rw [roundTo, dif_neg (Nat.not_le.2 h)]
  have hnearest := isNearestEven_roundHalfEven a.coeff (tenTo_pos (a.scale - Cents.places))
  have hvalue : (a.coeff : ℚ) / tenTo (a.scale - Cents.places) = 100 * a.value := by
    have hsplit : tenTo a.scale = tenTo (a.scale - Cents.places) * 100 := by
      have hadd := tenTo_add (a.scale - Cents.places) Cents.places
      rwa [Nat.sub_add_cancel (Nat.le_of_lt h)] at hadd
    have hpos : (tenTo (a.scale - Cents.places) : ℚ) ≠ 0 := by
      exact_mod_cast Nat.ne_of_gt (tenTo_pos _)
    rw [value, hsplit, Nat.cast_mul]
    push_cast
    field_simp
  rw [hround]
  rw [hvalue] at hnearest
  exact hnearest.unique a.isNearestEven_nearestCents

/-- An amount of no more than two places needs no rounding. -/
theorem nearestCents_of_scale_le {a : Decimal} (h : a.scale ≤ Cents.places) :
    a.nearestCents = a.coeff * tenTo (Cents.places - a.scale) := by
  refine a.isNearestEven_nearestCents.unique ?_
  have hvalue : 100 * a.value = ((a.coeff * tenTo (Cents.places - a.scale) : Int) : ℚ) := by
    have hsplit : 100 = tenTo (Cents.places - a.scale) * tenTo a.scale := by
      rw [← tenTo_add, Nat.sub_add_cancel h]
      rfl
    have hcast : (100 : ℚ) = tenTo (Cents.places - a.scale) * tenTo a.scale := by
      exact_mod_cast hsplit
    have hpos : (tenTo a.scale : ℚ) ≠ 0 := by
      exact_mod_cast Nat.ne_of_gt (tenTo_pos _)
    rw [value, hcast, Int.cast_mul, Int.cast_natCast]
    field_simp
  rw [hvalue]
  exact .intCast _

/-- Widening that fits adds all the zeros. -/
theorem coeff_widenTo_of_lt {a : Decimal} {places : Nat} (h : a.scale ≤ places)
    (hplaces : places ≤ maxScale)
    (hlt : (a.coeff * tenTo (places - a.scale)).natAbs < coeffLimit) :
    (a.widenTo places).coeff = a.coeff * tenTo (places - a.scale) := by
  have hscale : a.scale + (places - a.scale) ≤ maxScale := by omega
  simp [widenTo, List.range_succ, mk?_eq_some hlt hscale]

/-- Widening that stops short leaves a coefficient that is no amount in cents, and neither is the
    coefficient that does not fit. -/
theorem ofInt?_coeff_widenTo {a : Decimal} (h : a.scale ≤ Cents.places) :
    Cents.ofInt? (a.widenTo Cents.places).coeff =
      Cents.ofInt? (a.coeff * tenTo (Cents.places - a.scale)) := by
  by_cases hlt : (a.coeff * tenTo (Cents.places - a.scale)).natAbs < coeffLimit
  · rw [coeff_widenTo_of_lt h (by decide) hlt]
  have hzeros : tenTo (Cents.places - a.scale) ≤ 100 :=
    Nat.pow_le_pow_right (by decide) (Nat.sub_le ..)
  have hlarge : Bound.int64 < a.coeff.natAbs := by
    rw [Int.natAbs_mul, Int.natAbs_natCast] at hlt
    have hmul := Nat.mul_le_mul_left a.coeff.natAbs hzeros
    unfold coeffLimit Bound.nat96 at hlt
    unfold Bound.int64
    omega
  have hwide := a.natAbs_coeff_le_widenTo Cents.places
  have hexact : a.coeff.natAbs ≤ (a.coeff * tenTo (Cents.places - a.scale)).natAbs := by
    rw [Int.natAbs_mul, Int.natAbs_natCast]
    exact Nat.le_mul_of_pos_right _ (tenTo_pos _)
  rw [Cents.ofInt?_eq_none_iff.2 (Cents.not_inRange_of_lt (by omega)),
    Cents.ofInt?_eq_none_iff.2 (Cents.not_inRange_of_lt (by omega))]

theorem toCents?_eq_ofInt? (a : Decimal) : a.toCents? = Cents.ofInt? a.nearestCents := by
  unfold toCents?
  by_cases h : a.scale ≤ Cents.places
  · have hround : a.roundTo Cents.places = a := by
      rw [roundTo, dif_pos h]
    rw [hround, ofInt?_coeff_widenTo h, nearestCents_of_scale_le h]
  · have hscale : (a.roundTo Cents.places).scale = Cents.places := by
      rw [roundTo, dif_neg h]
    have hlt := (a.roundTo Cents.places).coeff_lt
    rw [ofInt?_coeff_widenTo (Nat.le_of_eq hscale), hscale, coeff_roundTo_places (Nat.not_le.1 h)]
    simp

/-- The amount in cents is its nearest cents, if they are in range. -/
theorem toCents_eq_ok_iff {a : Decimal} {c : Cents} :
    a.toCents = .ok c ↔ c.val = a.nearestCents := by
  unfold toCents
  rw [toCents?_eq_ofInt?]
  constructor
  · intro h
    split at h
    · next c' hc =>
      cases h
      exact Cents.val_of_ofInt? hc
    · cases h
  · intro h
    rw [← h, Cents.ofInt?_val]

theorem toCents_eq_error_iff {a : Decimal} :
    a.toCents = .error (.amountOutOfRange a) ↔ ¬Cents.InRange a.nearestCents := by
  rw [← Cents.ofInt?_eq_none_iff, ← toCents?_eq_ofInt?]
  unfold toCents
  cases a.toCents? <;> simp

end Decimal

/-- Bringing an amount to cents gives the integer nearest to a hundred times its value, a tie going
    to the even one, and refuses the amount exactly if that integer leaves the range. It keeps the
    order of amounts, and cents that became an amount come back as they were. -/
theorem toCents_rounds_half_even :
    (∀ a : Decimal, (∃! n : ℤ, IsNearestEven (100 * a.value) n) ∧
      ∀ n : ℤ, IsNearestEven (100 * a.value) n →
        (∀ c : Cents, a.toCents = .ok c ↔ c.val = n) ∧
        (a.toCents = .error (.amountOutOfRange a) ↔ ¬Cents.InRange n)) ∧
    (∀ (a b : Decimal) (c d : Cents), a.toCents = .ok c → b.toCents = .ok d →
      a.value ≤ b.value → c.val ≤ d.val) ∧
    ∀ c : Cents, (Decimal.ofCents c).toCents = .ok c := by
  refine ⟨fun a => ⟨⟨a.nearestCents, a.isNearestEven_nearestCents, ?_⟩, ?_⟩, ?_, ?_⟩
  · intro n hn
    exact hn.unique a.isNearestEven_nearestCents
  · intro n hn
    obtain rfl := hn.unique a.isNearestEven_nearestCents
    exact ⟨fun c => Decimal.toCents_eq_ok_iff, Decimal.toCents_eq_error_iff⟩
  · intro a b c d hc hd hle
    have hac := a.isNearestEven_nearestCents
    have hbd := b.isNearestEven_nearestCents
    rw [← Decimal.toCents_eq_ok_iff.1 hc] at hac
    rw [← Decimal.toCents_eq_ok_iff.1 hd] at hbd
    exact hac.le hbd (by linarith)
  · intro c
    rw [Decimal.toCents, Decimal.toCents?_ofCents]

/-- The half cents of 0.125 and 0.135 go to 0.12 and 0.14. -/
example : (Decimal.toCents? ⟨125, 3, false, by decide, by decide, nofun⟩).map (·.val) = some 12 ∧
    (Decimal.toCents? ⟨135, 3, false, by decide, by decide, nofun⟩).map (·.val) = some 14 := by
  decide

end LoanArrears
