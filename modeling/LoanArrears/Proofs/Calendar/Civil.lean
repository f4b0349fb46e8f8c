-- SUMMARY: Days of the calendar and their numbers: each number is the number of one valid day, and days are in the order of their numbers.
import LoanArrears.Calendar.Date
import Mathlib.Tactic.IntervalCases

/-!
# Days and their numbers

`Civil.ofDayNumber` finds the day of a number, and `Civil.dayNumber` takes it back. The
year of a day within a cycle of 400 years is found by a quotient. It is right because the
quotient only grows and is right at both ends of every year of the cycle, of which there
are few enough to be looked at one by one.

The order by year, month and day is that of the numbers.
-/

namespace LoanArrears.Civil

/-! ## Years of a cycle -/

/-- The day of a cycle on which its year `y` begins. -/
def yearStart (y : Nat) : Nat :=
  365 * y + y / 4 - y / 100

/-- Days of a cycle less its leap days up to then. -/
def commonDays (r : Nat) : Nat :=
  r - r / 1460 + r / 36524 - r / 146096

theorem commonDays_mono {r s : Nat} (h : r ≤ s) : commonDays r ≤ commonDays s := by
  induction h with
  | refl => exact Nat.le_refl _
  | step _ ih =>
    refine Nat.le_trans ih ?_
    unfold commonDays
    omega

/-- The quotient is right on the first and on the last day of every year of a cycle. -/
theorem commonDays_yearStart :
    ∀ y < 400, 365 * y ≤ commonDays (yearStart y) ∧
      commonDays (yearStart (y + 1) - 1) < 365 * (y + 1) := by
  decide +kernel

/-- The quotient finds the year of the cycle that a day is in. -/
theorem yearStart_div (r : Nat) (h : r < 146097) :
    commonDays r / 365 < 400 ∧ yearStart (commonDays r / 365) ≤ r ∧
      (r < yearStart (commonDays r / 365 + 1) ∨ commonDays r / 365 = 399 ∧ r = 146096) := by
  have hy : commonDays r / 365 < 400 := by unfold commonDays; omega
  generalize hdef : commonDays r / 365 = y at hy ⊢
  refine ⟨hy, ?_, ?_⟩
  · apply Nat.le_of_not_lt
    intro hlt
    cases y with
    | zero => simp [yearStart] at hlt
    | succ y =>
      have hend := (commonDays_yearStart y (by omega)).2
      have hmono := commonDays_mono (show r ≤ yearStart (y + 1) - 1 by omega)
      omega
  · apply Classical.or_iff_not_imp_left.2
    intro hge
    rcases Nat.lt_or_ge (y + 1) 400 with hlt | hlast
    · have hstart := (commonDays_yearStart (y + 1) hlt).1
      have hmono := commonDays_mono (show yearStart (y + 1) ≤ r by omega)
      omega
    · have : y = 399 := by omega
      subst this
      simp only [yearStart] at hge
      omega

/-- A year of a cycle has 366 days if it ends with a leap day. -/
theorem isLeapYear_of_yearStart {y : Nat} (cycle : Int) (hy : y < 400)
    (h : yearStart (y + 1) = yearStart y + 366 ∨ y = 399) :
    isLeapYear (cycle * 400 + y + 1) := by
  have h4 : (y + 1) / 4 = y / 4 ∨ (y + 1) / 4 = y / 4 + 1 ∧ (y + 1) % 4 = 0 := by omega
  have h100 : (y + 1) / 100 = y / 100 ∧ (y + 1) % 100 ≠ 0 ∨ (y + 1) / 100 = y / 100 + 1 := by omega
  simp only [isLeapYear, Bool.and_eq_true, Bool.or_eq_true, decide_eq_true_eq]
  unfold yearStart at h
  rcases h with h | rfl
  · rcases h4 with h4 | ⟨h4, hmod⟩
    · omega
    · rcases h100 with ⟨h100, hmod'⟩ | h100
      · omega
      · omega
  · omega

/-! ## Days of a number -/

/-- The calendar's number of the month that is the `m`-th after March. -/
def calendarMonth (m : Nat) : Nat :=
  if m < 10 then m + 3 else m - 9

/-- A day of a counted year lies within its month. -/
theorem day_le_daysInMonth {year : Int} {d m : Nat} (hm : m = (5 * d + 2) / 153) (hd : d ≤ 365)
    (hleap : d = 365 → isLeapYear (year + 1)) :
    d - (153 * m + 2) / 5 + 1 ≤
      daysInMonth (year + if calendarMonth m ≤ 2 then 1 else 0) (calendarMonth m) := by
  have hle : m ≤ 11 := by omega
  have hnext : d < (153 * (m + 1) + 2) / 5 := by omega
  clear hm
  interval_cases m
  case «11» =>
    by_cases h : d = 365
    · simp [daysInMonth, calendarMonth, hleap h, h]
    · have h28 : 28 ≤ daysInMonth (year + 1) 2 := by
        rw [daysInMonth, if_pos rfl]
        split <;> omega
      simp only [calendarMonth] at h28 ⊢
      simp
      omega
  all_goals
    simp only [daysInMonth, calendarMonth]
    simp
    omega

/-- The day of a number is one of the calendar, and it has that number. -/
theorem ofDayNumber_spec (n : Int) :
    (ofDayNumber n).isValid ∧ (ofDayNumber n).dayNumber = n := by
  have hrest : (n % cycleDays).toNat < 146097 := by unfold cycleDays; omega
  have hn : n = n / cycleDays * 146097 + (n % cycleDays).toNat := by unfold cycleDays; omega
  obtain ⟨hy, hlo, hhi⟩ := yearStart_div _ hrest
  have hcivil : ofDayNumber n =
      let y := commonDays (n % cycleDays).toNat / 365
      let d := (n % cycleDays).toNat - yearStart y
      let m := (5 * d + 2) / 153
      ⟨n / cycleDays * 400 + y + (if calendarMonth m ≤ 2 then 1 else 0), calendarMonth m,
        d - (153 * m + 2) / 5 + 1⟩ := rfl
  rw [hcivil]
  generalize n / cycleDays = cycle at hn ⊢
  generalize (n % cycleDays).toNat = r at *
  generalize commonDays r / 365 = y at *
  obtain ⟨d, rfl⟩ := Nat.exists_eq_add_of_le hlo
  have hd : d ≤ 365 := by unfold yearStart at *; omega
  have hleap : d = 365 → isLeapYear (cycle * 400 + y + 1) := by
    intro h365
    apply isLeapYear_of_yearStart cycle hy
    rcases hhi with hhi | ⟨h399, _⟩
    · left
      unfold yearStart at *
      omega
    · exact .inr h399
  simp only [Nat.add_sub_cancel_left]
  generalize hm : (5 * d + 2) / 153 = m
  have hmonth : 1 ≤ calendarMonth m ∧ calendarMonth m ≤ 12 ∧ (calendarMonth m + 9) % 12 = m := by
    unfold calendarMonth
    split <;> omega
  constructor
  · simp only [isValid, Bool.and_eq_true, decide_eq_true_eq]
    exact ⟨⟨⟨hmonth.1, hmonth.2.1⟩, by omega⟩, day_le_daysInMonth hm.symm hd hleap⟩
  · have hyear : (if calendarMonth m ≤ 2 then
        cycle * 400 + y + (if calendarMonth m ≤ 2 then 1 else 0) - 1
      else cycle * 400 + y + (if calendarMonth m ≤ 2 then 1 else 0)) = cycle * 400 + (y : Int) := by
      split <;> omega
    simp only [dayNumber, hyear, hmonth.2.2]
    unfold yearStart at hn
    omega

/-! ## Order -/

/-- The earlier of two days by year, month and day. -/
def Before (c c' : Civil) : Prop :=
  c.year < c'.year ∨ c.year = c'.year ∧ (c.month < c'.month ∨ c.month = c'.month ∧ c.day < c'.day)

theorem dayNumber_eq_add (c : Civil) :
    c.dayNumber = dayNumber ⟨c.year, c.month, 1⟩ + c.day - 1 := by
  simp only [dayNumber]
  omega

/-- Days of the counted years before the one that begins in March of `y`. -/
theorem daysBefore_succ (y : Int) :
    365 * y + y / 4 - y / 100 + y / 400 =
      365 * (y - 1) + (y - 1) / 4 - (y - 1) / 100 + (y - 1) / 400 +
        (if isLeapYear y then 366 else 365) := by
  have h4 : y / 4 = (y - 1) / 4 ∧ y % 4 ≠ 0 ∨ y / 4 = (y - 1) / 4 + 1 ∧ y % 4 = 0 := by omega
  have h100 :
      y / 100 = (y - 1) / 100 ∧ y % 100 ≠ 0 ∨ y / 100 = (y - 1) / 100 + 1 ∧ y % 100 = 0 := by
    omega
  have h400 :
      y / 400 = (y - 1) / 400 ∧ y % 400 ≠ 0 ∨ y / 400 = (y - 1) / 400 + 1 ∧ y % 400 = 0 := by
    omega
  by_cases hleap : isLeapYear y = true
  · rw [if_pos hleap]
    simp only [isLeapYear, Bool.and_eq_true, Bool.or_eq_true, decide_eq_true_eq] at hleap
    omega
  · rw [if_neg hleap]
    simp only [isLeapYear, Bool.and_eq_true, Bool.or_eq_true, decide_eq_true_eq] at hleap
    omega

/-- A month ends where the next one begins. -/
theorem dayNumber_add_daysInMonth (y : Int) {m : Nat} (h₁ : 1 ≤ m) (h₁₂ : m < 12) :
    dayNumber ⟨y, m, 1⟩ + daysInMonth y m = dayNumber ⟨y, m + 1, 1⟩ := by
  have hyear := daysBefore_succ y
  interval_cases m
  case «2» =>
    simp only [dayNumber, daysInMonth, if_pos]
    by_cases hleap : isLeapYear y = true
    · simp [hleap] at hyear ⊢
      omega
    · simp [hleap] at hyear ⊢
      omega
  all_goals
    simp [dayNumber, daysInMonth]
    try omega

theorem dayNumber_december (y : Int) :
    dayNumber ⟨y, 12, 1⟩ + daysInMonth y 12 = dayNumber ⟨y + 1, 1, 1⟩ := by
  simp [dayNumber, daysInMonth]
  omega

theorem dayNumber_month_mono (y : Int) {m m' : Nat} (h₁ : 1 ≤ m) (h : m ≤ m') (h₁₂ : m' ≤ 12) :
    dayNumber ⟨y, m, 1⟩ ≤ dayNumber ⟨y, m', 1⟩ := by
  induction h with
  | refl => exact Int.le_refl _
  | @step k hle ih =>
    have hnext := dayNumber_add_daysInMonth y (Nat.le_trans h₁ hle) h₁₂
    have hk := ih (Nat.le_of_succ_le h₁₂)
    rw [Nat.succ_eq_add_one]
    omega

theorem dayNumber_year_mono {y y' : Int} (h : y ≤ y') :
    dayNumber ⟨y, 1, 1⟩ ≤ dayNumber ⟨y', 1, 1⟩ := by
  simp only [dayNumber]
  have : (1 : Nat) ≤ 2 := by omega
  simp only [this, if_true]
  omega

theorem dayNumber_lt_of_before {c c' : Civil} (hc : c.isValid) (hc' : c'.isValid)
    (h : c.Before c') : c.dayNumber < c'.dayNumber := by
  simp only [isValid, Bool.and_eq_true, decide_eq_true_eq] at hc hc'
  obtain ⟨⟨⟨hm, hm12⟩, hday⟩, hend⟩ := hc
  obtain ⟨⟨⟨hm', hm12'⟩, hday'⟩, _⟩ := hc'
  rw [dayNumber_eq_add c, dayNumber_eq_add c']
  rcases h with hyear | ⟨hyear, hmonth | ⟨hmonth, hlt⟩⟩
  · have hdec := dayNumber_december c.year
    have hy := dayNumber_year_mono (show c.year + 1 ≤ c'.year by omega)
    have hfirst := dayNumber_month_mono c'.year (Nat.le_refl 1) hm' hm12'
    rcases Nat.lt_or_ge c.month 12 with h12 | h12
    · have hnext := dayNumber_add_daysInMonth c.year hm h12
      have hmono := dayNumber_month_mono c.year (show 1 ≤ c.month + 1 by omega) h12 (Nat.le_refl 12)
      omega
    · rw [show c.month = 12 by omega] at hend ⊢
      omega
  · have hnext := dayNumber_add_daysInMonth c.year hm (by omega)
    have hmono := dayNumber_month_mono c.year (show 1 ≤ c.month + 1 by omega) hmonth hm12'
    rw [← hyear]
    omega
  · rw [hyear, hmonth]
    omega

theorem before_trichotomy (c c' : Civil) : c.Before c' ∨ c = c' ∨ c'.Before c := by
  rcases c with ⟨y, m, d⟩
  rcases c' with ⟨y', m', d'⟩
  simp only [Before, Civil.mk.injEq]
  omega

/-- Days are in the order of their numbers. -/
theorem dayNumber_lt_iff {c c' : Civil} (hc : c.isValid) (hc' : c'.isValid) :
    c.dayNumber < c'.dayNumber ↔ c.Before c' := by
  constructor
  · intro hlt
    rcases before_trichotomy c c' with h | h | h
    · exact h
    · rw [h] at hlt
      omega
    · have := dayNumber_lt_of_before hc' hc h
      omega
  · exact dayNumber_lt_of_before hc hc'

theorem before_ofDayNumber_iff (m n : Int) :
    (ofDayNumber m).Before (ofDayNumber n) ↔ m < n := by
  obtain ⟨hm, hmn⟩ := ofDayNumber_spec m
  obtain ⟨hn, hnn⟩ := ofDayNumber_spec n
  rw [← dayNumber_lt_iff hm hn, hmn, hnn]

/-- Days of a smaller year have a smaller number. -/
theorem lt_of_year_lt {m n : Int} (h : (ofDayNumber m).year < (ofDayNumber n).year) : m < n :=
  (before_ofDayNumber_iff m n).1 (.inl h)

theorem year_mono {m n : Int} (h : m ≤ n) : (ofDayNumber m).year ≤ (ofDayNumber n).year := by
  by_contra hlt
  have := lt_of_year_lt (Int.not_le.1 hlt)
  omega

theorem ofDayNumber_inj {m n : Int} : ofDayNumber m = ofDayNumber n ↔ m = n := by
  constructor
  · intro h
    rw [← (ofDayNumber_spec m).2, h, (ofDayNumber_spec n).2]
  · intro h
    rw [h]

end LoanArrears.Civil
