-- SUMMARY: The test of due dates as texts against the test as dates: exactly when they agree, over all dates, business dates and days of grace that have a cutoff.
import LoanArrears.Proofs.Calendar.TextOrder

/-!
# The two tests of due dates

Whether an installment is due before the cutoff is asked of texts in the tables and of dates
elsewhere. A plus sign comes before a minus sign and that before every digit, so years past 9999
come first as texts, negative years next, and years of four digits last; negative years are in the
order of their digits, the wrong way round. `date_tests_agree_iff` says what is left of the
agreement: all of it while the tables have a cutoff (`Date.tableCutoff?`), the due date is no later
than the year 9999 and not both of due date and cutoff lie before the year 0.
-/

namespace LoanArrears

open Text

/-! ## Texts with a sign -/

/-- The first four digits of a number. -/
def leadingFour (n : Nat) : Nat :=
  value ((padded 4 n).take 4)

theorem four_lt_length_padded {n : Nat} (hn : 10000 ≤ n) : 4 < (padded 4 n).length := by
  have hnumeral : ¬ (numeral n).length ≤ 4 := by
    rw [numeral, Nat.length_toDigits_le_iff (by decide) (by decide)]
    omega
  simp only [padded, List.length_append]
  omega

theorem take_padded_lt_iff {n n' : Nat} (hn : 10000 ≤ n) (hn' : n' < 10000) :
    (padded 4 n).take 4 < padded 4 n' ↔ leadingFour n < n' := by
  have hlong := four_lt_length_padded hn
  have hlen : ((padded 4 n).take 4).length = (padded 4 n').length := by
    rw [length_padded (by decide) hn', List.length_take]
    omega
  have h := ofDigitChars_lt_iff hlen
    (fun _ hc => isDigit_of_mem_padded (List.mem_of_mem_take hc))
    (fun _ => @isDigit_of_mem_padded 4 n' _) 0 0
  have hvalue : Nat.ofDigitChars 10 (padded 4 n') 0 = n' := value_padded 4 n'
  rw [hvalue] at h
  simpa [leadingFour, value] using h.symm

namespace Civil

variable {c c' : Civil}

theorem toChars_of_year_gt (hc : 9999 < c.year) : c.toChars = '+' :: c.unsignedChars := by
  rw [toChars, yearChars, if_neg (by omega), if_neg (by omega), List.append_assoc]
  rfl

/-- Years past 9999 come first. -/
theorem toChars_lt_of_year_gt (hc : 9999 < c.year) (hc' : c'.year ≤ 9999) :
    c.toChars < c'.toChars := by
  rw [toChars_of_year_gt hc]
  by_cases hneg : c'.year < 0
  · rw [toChars_of_neg hneg]
    exact List.cons_lt_cons_iff.2 (.inl (by decide))
  · obtain ⟨d, rest, htext, hdigit⟩ := exists_cons_of_hasFourDigitYear ⟨Int.not_lt.1 hneg, hc'⟩
    rw [htext]
    exact List.cons_lt_cons_iff.2 (.inl (lt_of_isDigit (by decide) hdigit))

/-- The fifth digit of a year stands against the hyphen behind a shorter one, and comes after it. -/
theorem unsignedChars_lt_iff_of_long (hc : 10000 ≤ c.year.natAbs) (hc' : c'.year.natAbs < 10000) :
    c.unsignedChars < c'.unsignedChars ↔ leadingFour c.year.natAbs < c'.year.natAbs := by
  have hlong := four_lt_length_padded hc
  obtain ⟨d, rest, hdrop⟩ := List.exists_cons_of_ne_nil
    (show (padded 4 c.year.natAbs).drop 4 ≠ [] by simp; omega)
  have hminus : '-' < d := lt_of_isDigit (by decide)
    (isDigit_of_mem_padded (List.mem_of_mem_drop (hdrop ▸ List.mem_cons_self)))
  rw [unsignedChars, unsignedChars, ← List.take_append_drop 4 (padded 4 c.year.natAbs),
    List.append_assoc, hdrop,
    append_lt_append_iff (by rw [length_padded (by decide) hc', List.length_take]; omega)]
  simp only [List.cons_append, List.cons_lt_cons_iff]
  rw [take_padded_lt_iff hc hc']
  refine or_iff_left fun hlater => ?_
  rcases hlater.2 with hlt | ⟨heq, -⟩
  · exact Char.lt_asymm hlt hminus
  · exact Char.lt_irrefl d (heq ▸ hminus)

/-- Of two negative years the one with the smaller digits comes first; one of more than four digits
    counts with its first four. -/
theorem toChars_lt_iff_of_neg (hvalid : c.isValid) (hvalid' : c'.isValid) (hc : c.year < 0)
    (hc' : c'.year < 0) (hlo' : -9999 ≤ c'.year) :
    c.toChars < c'.toChars ↔
      if -9999 ≤ c.year then c'.year < c.year ∨ c.year = c'.year ∧ c.Before c'
      else leadingFour c.year.natAbs < c'.year.natAbs := by
  rw [toChars_of_neg hc, toChars_of_neg hc', List.cons_lt_cons_iff]
  simp only [Char.lt_irrefl, false_or, true_and]
  split
  · next hlo =>
    rw [unsignedChars_lt_iff hvalid hvalid' (by omega) (by omega), Before]
    omega
  · next hlo => exact unsignedChars_lt_iff_of_long (by omega) (by omega)

end Civil

/-! ## Cutoffs of the tables -/

namespace Date

/-- The day before which the tables take an installment as overdue, if they have one. -/
def tableCutoff? (today : Date) (grace : Nat) : Option Civil :=
  let year := today.civil.year
  let day := today.tableNumber - grace
  if -9999 ≤ year ∧ year ≤ 9999 ∧ grace < graceTextLimit ∧ firstText ≤ day ∧ day ≤ lastText then
    some (Civil.ofDayNumber day)
  else none

variable {due today cutoff : Date} {grace : Nat}

theorem cutoffText?_eq (today : Date) (grace : Nat) :
    today.cutoffText? grace =
      (today.tableCutoff? grace).map fun day => String.ofList day.toChars := by
  unfold cutoffText? tableCutoff?
  dsimp only
  split <;> rfl

/-- The day of the tables is the cutoff of the calendar or, before the year 0, the day after it. -/
theorem exists_of_tableCutoff? {day : Civil} (hcutoff : today.cutoff grace = .ok cutoff)
    (h : today.tableCutoff? grace = some day) :
    ∃ n, day = Civil.ofDayNumber n ∧ firstText ≤ n ∧ n ≤ lastText ∧
      (n = cutoff.number ∨ n = cutoff.number + 1 ∧ n < firstFourDigit) := by
  have hnumber := number_of_cutoff hcutoff
  unfold tableCutoff? at h
  dsimp only at h
  split at h
  · next hrange =>
    obtain ⟨-, -, -, hfirst, hlast⟩ := hrange
    refine ⟨today.tableNumber - grace, (Option.some.inj h).symm, hfirst, hlast, ?_⟩
    have := tableNumber_cases today
    omega
  · cases h

theorem isBeforeText_cutoffText?_eq (due today : Date) (grace : Nat) :
    due.isBeforeText (today.cutoffText? grace) =
      match today.tableCutoff? grace with
      | some day => decide (due.civil.toChars < day.toChars)
      | none => false := by
  rw [cutoffText?_eq]
  cases today.tableCutoff? grace with
  | none => rfl
  | some day =>
    simp only [Option.map_some, isBeforeText, toText, String.lt_iff, String.toList_ofList]

/-- The tests agree on a due date and a day of the tables which both lie before the year 0. -/
def AgreesBeforeYearZero (due cutoff : Date) (day : Civil) : Prop :=
  if due.civil.year = day.year then due = cutoff → day = cutoff.civil
  else due = cutoff ∨
    due.civil.year < -9999 ∧ leadingFour due.civil.year.natAbs < day.year.natAbs

theorem agree_before_year_zero {n : Int} (hn : n = cutoff.number ∨ n = cutoff.number + 1)
    (hlow : -4713 ≤ (Civil.ofDayNumber n).year) (hdue : due.civil.year < 0)
    (hday : (Civil.ofDayNumber n).year < 0) :
    (due.civil.toChars < (Civil.ofDayNumber n).toChars ↔ due.number < cutoff.number) ↔
      AgreesBeforeYearZero due cutoff (Civil.ofDayNumber n) := by
  have htext := Civil.toChars_lt_iff_of_neg (Civil.ofDayNumber_spec due.number).1
    (Civil.ofDayNumber_spec n).1 hdue hday (by omega)
  rw [Civil.before_ofDayNumber_iff] at htext
  have hsame : Civil.ofDayNumber n = cutoff.civil ↔ n = cutoff.number := Civil.ofDayNumber_inj
  have heq : due = cutoff ↔ due.number = cutoff.number := ⟨congrArg _, eq_of_number⟩
  unfold AgreesBeforeYearZero
  rw [hsame, heq]
  unfold civil at hdue ⊢
  rw [htext]
  rcases Int.lt_trichotomy (Civil.ofDayNumber due.number).year (Civil.ofDayNumber n).year
    with hlt | hsameYear | hgt
  · have hnumber := Civil.lt_of_year_lt hlt
    rw [if_neg (Int.ne_of_lt hlt)]
    split
    · omega
    · next hlong =>
      -- The date is before the day ahead of the cutoff's, as the year -9999 lies between them.
      have hyear : (Civil.ofDayNumber (Civil.dayNumber ⟨-9999, 1, 1⟩)).year = -9999 := by decide
      have hbelow := Civil.lt_of_year_lt (show
        (Civil.ofDayNumber due.number).year < (Civil.ofDayNumber _).year by rw [hyear]; omega)
      have habove := Civil.lt_of_year_lt (show
        (Civil.ofDayNumber _).year < (Civil.ofDayNumber n).year by rw [hyear]; omega)
      omega
  · rw [if_pos hsameYear, if_pos (by omega)]
    omega
  · have hnumber := Civil.lt_of_year_lt hgt
    rw [if_neg (Int.ne_of_gt hgt), if_pos (by omega)]
    omega

theorem agree_of_cutoff {day : Civil} (hcutoff : today.cutoff grace = .ok cutoff)
    (hday : today.tableCutoff? grace = some day) :
    (due.civil.toChars < day.toChars ↔ due.number < cutoff.number) ↔
      due.civil.year ≤ 9999 ∧
        (due.civil.year < 0 → day.year < 0 → AgreesBeforeYearZero due cutoff day) := by
  obtain ⟨n, rfl, hfirst, hlast, hn⟩ := exists_of_tableCutoff? hcutoff hday
  have hlow := Civil.year_mono hfirst
  have hhigh := Civil.year_mono hlast
  rw [show (Civil.ofDayNumber firstText).year = -4713 by decide] at hlow
  rw [show (Civil.ofDayNumber lastText).year = 9999 by decide] at hhigh
  by_cases hlong : due.civil.year ≤ 9999
  · by_cases hdue : due.civil.year < 0
    · by_cases hbefore : (Civil.ofDayNumber n).year < 0
      · rw [agree_before_year_zero (by omega) hlow hdue hbefore]
        exact ⟨fun h => ⟨hlong, fun _ _ => h⟩, fun h => h.2 hdue hbefore⟩
      · have htext := Civil.toChars_lt_of_neg hdue ⟨Int.not_lt.1 hbefore, hhigh⟩
        have hearly : due.number < firstFourDigit := Civil.year_neg_iff.1 hdue
        have hlate := mt Civil.year_neg_iff.2 hbefore
        refine iff_of_true ⟨fun _ => ?_, fun _ => htext⟩ ⟨hlong, fun _ h => absurd h hbefore⟩
        omega
    · exact iff_of_true (toChars_lt_day_iff ⟨Int.not_lt.1 hdue, hlong⟩ hn hlast)
        ⟨hlong, fun h => absurd h hdue⟩
  · -- The date comes first as a text and last as a date.
    have htext := Civil.toChars_lt_of_year_gt (Int.not_le.1 hlong) hhigh
    have hlate : n < due.number :=
      Civil.lt_of_year_lt (Int.lt_of_le_of_lt hhigh (Int.not_le.1 hlong))
    refine iff_of_false (fun h => ?_) fun h => hlong h.1
    have := h.1 htext
    omega

end Date

/-- The two tests agree exactly if there is a cutoff for the tables, the due date is no later than
    the year 9999, and it agrees if both lie before the year 0; or if there is none and the date is
    not before that of the calendar. -/
theorem date_tests_agree_iff {due today cutoff : Date} {grace : Nat}
    (hcutoff : today.cutoff grace = .ok cutoff) :
    due.isBeforeText (today.cutoffText? grace) = due.before cutoff ↔
      match today.tableCutoff? grace with
      | none => due.before cutoff = false
      | some day => due.civil.year ≤ 9999 ∧
          (due.civil.year < 0 → day.year < 0 → due.AgreesBeforeYearZero cutoff day) := by
  rw [Date.isBeforeText_cutoffText?_eq]
  cases hday : today.tableCutoff? grace with
  | none => exact eq_comm
  | some day =>
    rw [Date.before, decide_eq_decide]
    exact Date.agree_of_cutoff hcutoff hday

namespace Date.Sample

/-- 14 March 2024. -/
def businessDate : Date := ⟨Civil.dayNumber ⟨2024, 3, 14⟩, by decide, by decide⟩

/-- 14 days earlier. -/
def cutoff : Date := ⟨Civil.dayNumber ⟨2024, 2, 29⟩, by decide, by decide⟩

/-- The day before. -/
def due : Date := ⟨Civil.dayNumber ⟨2024, 2, 28⟩, by decide, by decide⟩

/-- 1 January 10000. -/
def farDue : Date := ⟨Civil.dayNumber ⟨10000, 1, 1⟩, by decide, by decide⟩

end Date.Sample

open Date.Sample in
theorem date_tests_agree_at_leap_day :
    businessDate.cutoff 14 = .ok cutoff ∧ due.before cutoff ∧
      due.isBeforeText (businessDate.cutoffText? 14) = due.before cutoff := by
  refine ⟨by decide, by decide, (date_tests_agree_iff (by decide)).2 ?_⟩
  exact ⟨by decide, fun hdue => absurd hdue (by decide)⟩

open Date.Sample in
/-- A due date of the year 10000 is before the cutoff as a text, and not as a date. -/
theorem date_tests_differ_in_year_10000 :
    ¬ ∀ (due today cutoff : Date) (grace : Nat), today.cutoff grace = .ok cutoff →
      due.isBeforeText (today.cutoffText? grace) = due.before cutoff := by
  intro h
  have htext : farDue.isBeforeText (businessDate.cutoffText? 0) = true := by
    rw [Date.isBeforeText_cutoffText?_eq]
    decide
  have hdate : farDue.before businessDate = false := by decide
  have hagree := h farDue businessDate businessDate 0 (by decide)
  rw [htext, hdate] at hagree
  cases hagree

end LoanArrears
