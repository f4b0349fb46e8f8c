-- SUMMARY: Rounding of integer quotients to the nearest integer, ties to even or away from zero, and rounding to a bounded number of bits.
import LoanArrears.Power

/-!
# Rounding

`roundHalfEven n d` is the integer nearest to `n / d`; a quotient half-way
between two integers goes to the even one. Amounts are brought to cents with
it, and `roundBits` uses it to keep a bounded number of leading bits.
`roundHalfAway` sends a tie away from zero; numerals are cut off with it.
-/

namespace LoanArrears

/-! ## Quotients -/

/-- The integer nearest to `n / d`, a tie going to the even neighbour. -/
def roundHalfEven (n : Int) (d : Nat) : Int :=
  let below := n / d
  let rest := n % d
  if 2 * rest < d then below
  else if 2 * rest > d then below + 1
  else if below % 2 = 0 then below
  else below + 1

theorem roundHalfEven_one (n : Int) : roundHalfEven n 1 = n := by
  simp [roundHalfEven]

/-- Rounding moves a quotient by half a unit at most. -/
theorem roundHalfEven_near (n : Int) {d : Nat} (hd : 0 < d) :
    2 * n - d ≤ 2 * d * roundHalfEven n d ∧ 2 * d * roundHalfEven n d ≤ 2 * n + d := by
  have hsplit : (d : Int) * (n / d) + n % d = n := Int.mul_ediv_add_emod n d
  have hlo : 0 ≤ n % d := Int.emod_nonneg n (by omega)
  have hhi : n % d < d := Int.emod_lt_of_pos n (by omega)
  have hup : (d : Int) * (n / d + 1) = d * (n / d) + d := by rw [Int.mul_add, Int.mul_one]
  unfold roundHalfEven
  simp only [Int.mul_assoc]
  split
  · omega
  · split
    · omega
    · split <;> omega

/-- Rounding never leads away from zero by more than the dividend. -/
theorem roundHalfEven_natAbs_le (n : Int) {d : Nat} (hd : 0 < d) :
    (roundHalfEven n d).natAbs ≤ n.natAbs := by
  have hnear := roundHalfEven_near n hd
  generalize roundHalfEven n d = r at hnear ⊢
  have hn : (n.natAbs : Int) ≤ d * n.natAbs := by
    simpa using Int.mul_le_mul_of_nonneg_right (show (1 : Int) ≤ d by omega)
      (show (0 : Int) ≤ n.natAbs by omega)
  apply Nat.le_of_lt_succ
  rcases Nat.lt_or_ge r.natAbs (n.natAbs + 1) with h | h
  · exact h
  · have hr : (d : Int) * (n.natAbs + 1) ≤ d * r.natAbs :=
      Int.mul_le_mul_of_nonneg_left (by omega) (by omega)
    rw [Int.mul_add, Int.mul_one] at hr
    rw [Int.mul_assoc] at hnear
    rcases Int.natAbs_eq r with h' | h'
    · rw [← h'] at hr; omega
    · rw [show (r.natAbs : Int) = -r by omega, Int.mul_neg] at hr; omega

/-- The integer nearest to `n / d`, a tie going away from zero. -/
def roundHalfAway (n : Int) (d : Nat) : Int :=
  let size : Nat := (2 * n.natAbs + d) / (2 * d)
  if n < 0 then -size else size

theorem natAbs_roundHalfAway (n : Int) (d : Nat) :
    (roundHalfAway n d).natAbs = (2 * n.natAbs + d) / (2 * d) := by
  simp only [roundHalfAway]
  split <;> simp only [Int.natAbs_neg, Int.natAbs_natCast]

theorem roundHalfAway_natAbs_le (n : Int) {d : Nat} (hd : 0 < d) :
    (roundHalfAway n d).natAbs ≤ n.natAbs := by
  rw [natAbs_roundHalfAway]
  have hsize : n.natAbs ≤ d * n.natAbs := Nat.le_mul_of_pos_left _ hd
  refine Nat.le_of_lt_succ (Nat.div_lt_of_lt_mul ?_)
  rw [Nat.mul_assoc, Nat.mul_succ]
  omega

/-! ## Leading bits -/

/-- `v` rounded to its `bits` leading binary digits, a tie going to the even
    neighbour; the sign is kept. -/
def roundBits (bits : Nat) (v : Int) : Int :=
  let dropped := twoTo (v.natAbs.log2 + 1 - bits)
  roundHalfEven v dropped * dropped

/-- A value that fits in the bits is kept. -/
theorem roundBits_of_lt {bits : Nat} {v : Int} (h : v.natAbs < twoTo bits) :
    roundBits bits v = v := by
  by_cases hv : v = 0
  · simp [hv, roundBits, roundHalfEven, twoTo_pos]
  · have hlog : v.natAbs.log2 + 1 - bits = 0 := by
      have := (Nat.log2_lt (by omega : v.natAbs ≠ 0)).2 h
      omega
    simp [roundBits, hlog, roundHalfEven_one]

end LoanArrears
