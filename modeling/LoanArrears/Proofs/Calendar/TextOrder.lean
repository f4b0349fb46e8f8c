-- SUMMARY: Dates and their texts: texts of years with four digits are in the order of the dates, and textual cutoffs agree with those of the calendar.
import LoanArrears.Arrears.Totals
import LoanArrears.Proofs.Calendar.Civil

/-!
# Dates in the order of their texts

Numerals of one width are in the order of their numbers, so dates of years with four
digits are in the order of their texts. A textual cutoff may lie before the year 0 or be
missing; no such date is before it then, nor is it before the same day of the calendar.
-/

namespace LoanArrears

open Text

/-! ## Numerals of one width -/

theorem ofDigitChars_lt_iff {l l' : List Char} (hlen : l.length = l'.length)
    (hl : ∀ c ∈ l, c.isDigit) (hl' : ∀ c ∈ l', c.isDigit) (i i' : Nat) :
    Nat.ofDigitChars 10 l i < Nat.ofDigitChars 10 l' i' ↔ i < i' ∨ i = i' ∧ l < l' := by
  induction l generalizing l' i i' with
  | nil =>
    cases l' with
    | nil => simp
    | cons c' t' => simp at hlen
  | cons c t ih =>
    cases l' with
    | nil => simp at hlen
    | cons c' t' =>
      have hc := Char.isDigit_iff_toNat.1 (hl c List.mem_cons_self)
      have hc' := Char.isDigit_iff_toNat.1 (hl' c' List.mem_cons_self)
      have heq : c = c' ↔ c.toNat = c'.toNat := by rw [Char.toNat_inj]
      have hlt : c < c' ↔ c.toNat < c'.toNat := by rfl
      have hzero : '0'.toNat = 48 := rfl
      have hnine : '9'.toNat = 57 := rfl
      rw [Nat.ofDigitChars_cons, Nat.ofDigitChars_cons,
        ih (by simpa using hlen) (fun d hd => hl d (List.mem_cons_of_mem _ hd))
          (fun d hd => hl' d (List.mem_cons_of_mem _ hd)),
        List.cons_lt_cons_iff, heq, hlt]
      generalize (t < t') = p
      by_cases hp : p <;> simp only [hp, and_true, and_false, or_false] <;> omega

theorem append_lt_append_iff {l l' r r' : List Char} (hlen : l.length = l'.length) :
    l ++ r < l' ++ r' ↔ l < l' ∨ l = l' ∧ r < r' := by
  induction l generalizing l' with
  | nil =>
    cases l' with
    | nil => simp
    | cons c' t' => simp at hlen
  | cons c t ih =>
    cases l' with
    | nil => simp at hlen
    | cons c' t' =>
      have hlen' : t.length = t'.length := by simpa using hlen
      simp only [List.cons_append, List.cons_lt_cons_iff, ih hlen', List.cons.injEq]
      grind

theorem length_padded {width n : Nat} (hw : 0 < width) (h : n < Nat.pow 10 width) :
    (padded width n).length = width := by
  have : (numeral n).length ≤ width := (Nat.length_toDigits_le_iff (by decide) hw).2 h
  simp [padded]
  omega

theorem value_padded (width n : Nat) : value (padded width n) = n := by
  unfold value padded
  rw [Nat.ofDigitChars_append, Nat.ofDigitChars_replicate_zero]
  simpa [value] using value_numeral n

theorem padded_lt_iff {width m n : Nat} (hw : 0 < width) (hm : m < Nat.pow 10 width)
    (hn : n < Nat.pow 10 width) : padded width m < padded width n ↔ m < n := by
  have h := ofDigitChars_lt_iff (by rw [length_padded hw hm, length_padded hw hn])
    (fun _ => @isDigit_of_mem_padded width m _) (fun _ => @isDigit_of_mem_padded width n _) 0 0
  have hm' := value_padded width m
  have hn' := value_padded width n
  unfold value at hm' hn'
  rw [hm', hn'] at h
  simpa using h.symm

theorem padded_inj {width m n : Nat} : padded width m = padded width n ↔ m = n := by
  constructor
  · intro h
    rw [← value_padded width m, h, value_padded]
  · intro h
    rw [h]

theorem lt_of_isDigit {sign d : Char} (hsign : sign < '0') (hd : d.isDigit) : sign < d := by
  have hzero := (Char.isDigit_iff_toNat.1 hd).1
  exact Nat.lt_of_lt_of_le (show sign.toNat < '0'.toNat from hsign) hzero

/-! ## Texts of dates -/

/-- The year has four digits and no sign. -/
def Civil.HasFourDigitYear (c : Civil) : Prop :=
  0 ≤ c.year ∧ c.year ≤ 9999

theorem Civil.daysInMonth_le (year : Int) (month : Nat) : daysInMonth year month ≤ 31 := by
  unfold daysInMonth
  split
  · split <;> omega
  · split <;> omega

namespace Civil

variable {c c' : Civil}

/-- The text of a day behind the sign of its year. -/
def unsignedChars (c : Civil) : List Char :=
  padded 4 c.year.natAbs ++ ('-' :: padded 2 c.month ++ '-' :: padded 2 c.day)

theorem unsignedChars_lt_iff (hc : c.isValid) (hc' : c'.isValid) (hy : c.year.natAbs < 10000)
    (hy' : c'.year.natAbs < 10000) :
    c.unsignedChars < c'.unsignedChars ↔ c.year.natAbs < c'.year.natAbs ∨
      c.year.natAbs = c'.year.natAbs ∧
        (c.month < c'.month ∨ c.month = c'.month ∧ c.day < c'.day) := by
  simp only [isValid, Bool.and_eq_true, decide_eq_true_eq] at hc hc'
  have hd := daysInMonth_le c.year c.month
  have hd' := daysInMonth_le c'.year c'.month
  have hlen {n : Nat} (hn : n < 10000) : (padded 4 n).length = 4 := length_padded (by decide) hn
  have hlen₂ {n : Nat} (hn : n < 100) : ('-' :: padded 2 n).length = 3 := by
    rw [List.length_cons, length_padded (by decide) hn]
  rw [unsignedChars, unsignedChars, append_lt_append_iff (by rw [hlen hy, hlen hy']),
    append_lt_append_iff (by rw [hlen₂ (by omega), hlen₂ (by omega)]), List.cons_lt_cons_iff,
    List.cons_lt_cons_iff, List.cons.injEq, padded_inj, padded_inj,
    @padded_lt_iff 4 _ _ (by decide) hy hy',
    @padded_lt_iff 2 _ _ (by decide) (by simp; omega) (by simp; omega),
    @padded_lt_iff 2 _ _ (by decide) (by simp; omega) (by simp; omega)]
  simp only [Char.lt_irrefl, false_or, true_and]

theorem toChars_of_hasFourDigitYear (hc : c.HasFourDigitYear) : c.toChars = c.unsignedChars := by
  rw [toChars, yearChars, if_pos ⟨hc.1, hc.2⟩, List.append_assoc]
  rfl

theorem toChars_of_neg (hc : c.year < 0) : c.toChars = '-' :: c.unsignedChars := by
  rw [toChars, yearChars, if_neg (by omega), if_pos hc, List.append_assoc]
  rfl

theorem toChars_lt_iff (hc : c.isValid) (hc' : c'.isValid) (hy : c.HasFourDigitYear)
    (hy' : c'.HasFourDigitYear) : c.toChars < c'.toChars ↔ c.Before c' := by
  rw [toChars_of_hasFourDigitYear hy, toChars_of_hasFourDigitYear hy']
  obtain ⟨hlo, hhi⟩ := hy
  obtain ⟨hlo', hhi'⟩ := hy'
  rw [unsignedChars_lt_iff hc hc' (by omega) (by omega), Before]
  omega

theorem exists_cons_of_hasFourDigitYear (hc : c.HasFourDigitYear) :
    ∃ d rest, c.toChars = d :: rest ∧ d.isDigit := by
  obtain ⟨d, rest, hpadded⟩ := List.exists_cons_of_ne_nil
    (show padded 4 c.year.natAbs ≠ [] by simp [padded, numeral_ne_nil])
  refine ⟨d, rest ++ ('-' :: padded 2 c.month ++ '-' :: padded 2 c.day), ?_, ?_⟩
  · rw [toChars_of_hasFourDigitYear hc, unsignedChars, hpadded]
    rfl
  · exact isDigit_of_mem_padded (hpadded ▸ List.mem_cons_self)

/-- A negative year comes before one of four digits. -/
theorem toChars_lt_of_neg (hc : c.year < 0) (hc' : c'.HasFourDigitYear) :
    c.toChars < c'.toChars := by
  obtain ⟨d, rest, htext, hdigit⟩ := exists_cons_of_hasFourDigitYear hc'
  rw [toChars_of_neg hc, htext]
  exact List.cons_lt_cons_iff.2 (.inl (lt_of_isDigit (by decide) hdigit))

end Civil

namespace Date

def HasFourDigitYear (d : Date) : Prop :=
  d.civil.HasFourDigitYear

theorem toText_lt_iff {a b : Date} (ha : a.HasFourDigitYear) (hb : b.HasFourDigitYear) :
    a.toText < b.toText ↔ a.number < b.number := by
  rw [String.lt_iff, toText, toText, String.toList_ofList, String.toList_ofList, civil, civil,
    Civil.toChars_lt_iff (Civil.ofDayNumber_spec _).1 (Civil.ofDayNumber_spec _).1 ha hb]
  exact Civil.before_ofDayNumber_iff _ _

/-- The first day of the year 0. -/
def firstFourDigit : Int := Civil.dayNumber ⟨0, 1, 1⟩

end Date

theorem Civil.year_neg_iff {n : Int} : (ofDayNumber n).year < 0 ↔ n < Date.firstFourDigit := by
  obtain ⟨hvalid, hn⟩ := ofDayNumber_spec n
  have hfirst := dayNumber_lt_iff hvalid (show isValid ⟨0, 1, 1⟩ by decide)
  rw [hn] at hfirst
  rw [Date.firstFourDigit, hfirst]
  simp only [isValid, Bool.and_eq_true, decide_eq_true_eq] at hvalid
  simp only [Before]
  omega

theorem Civil.hasFourDigitYear_ofDayNumber_iff (n : Int) :
    (ofDayNumber n).HasFourDigitYear ↔ Date.firstFourDigit ≤ n ∧ n ≤ Date.lastText := by
  obtain ⟨hvalid, hn⟩ := ofDayNumber_spec n
  have hneg := @year_neg_iff n
  have hlast := dayNumber_lt_iff (show isValid ⟨9999, 12, 31⟩ by decide) hvalid
  rw [hn] at hlast
  have hdays := daysInMonth_le (ofDayNumber n).year (ofDayNumber n).month
  simp only [isValid, Bool.and_eq_true, decide_eq_true_eq] at hvalid
  unfold Date.lastText HasFourDigitYear
  simp only [Before] at hlast
  omega

namespace Date

theorem hasFourDigitYear_iff {d : Date} :
    d.HasFourDigitYear ↔ firstFourDigit ≤ d.number ∧ d.number ≤ lastText :=
  Civil.hasFourDigitYear_ofDayNumber_iff d.number

/-- Tables count one day more at most, and only in years before the year 0. -/
theorem tableNumber_cases (d : Date) :
    d.tableNumber = d.number ∨
      d.tableNumber = d.number + 1 ∧ d.number + 1 < firstFourDigit := by
  unfold tableNumber
  dsimp only
  generalize hyear : (if d.civil.month ≤ 2 then d.civil.year - 1 else d.civil.year) = year
  split
  · next hskew =>
    have hold : d.civil.year < (Civil.ofDayNumber (-425)).year := by
      rw [show (Civil.ofDayNumber (-425)).year = -1 by decide]
      split at hyear <;> omega
    have hnumber := Civil.lt_of_year_lt hold
    rw [show firstFourDigit = -60 by decide]
    omega
  · exact .inl rfl

theorem tableNumber_of_hasFourDigitYear {d : Date} (h : d.HasFourDigitYear) :
    d.tableNumber = d.number := by
  have hfirst := (hasFourDigitYear_iff.1 h).1
  have hcases := d.tableNumber_cases
  omega

/-- Tables find a date before a day exactly if it is before the day of the calendar; one more day
    of the tables makes no difference before the year 0. -/
theorem toChars_lt_day_iff {due : Date} {n day : Int} (hdue : due.HasFourDigitYear)
    (hn : n = day ∨ n = day + 1 ∧ n < firstFourDigit) (hlast : n ≤ lastText) :
    due.civil.toChars < (Civil.ofDayNumber n).toChars ↔ due.number < day := by
  by_cases hearly : n < firstFourDigit
  · have hlate := (hasFourDigitYear_iff.1 hdue).1
    have htext := Civil.toChars_lt_of_neg (Civil.year_neg_iff.2 hearly) hdue
    refine iff_of_false (List.lt_asymm htext) ?_
    omega
  · have hyear := (Civil.hasFourDigitYear_ofDayNumber_iff n).2 ⟨Int.not_lt.1 hearly, hlast⟩
    rw [civil, Civil.toChars_lt_iff (Civil.ofDayNumber_spec _).1 (Civil.ofDayNumber_spec _).1 hdue
      hyear, Civil.before_ofDayNumber_iff]
    omega

/-- Tables and calendar agree on what is before a cutoff. -/
theorem isBeforeText_cutoffText? {due today : Date} (hdue : due.HasFourDigitYear)
    (htoday : today.HasFourDigitYear) (grace : Nat) :
    due.isBeforeText (today.cutoffText? grace) = decide (due.number < today.number - grace) := by
  have hd := hasFourDigitYear_iff.1 hdue
  have ht := hasFourDigitYear_iff.1 htoday
  have hfirst : firstFourDigit = -60 := by decide
  have hlow : firstText = -1721119 := by decide
  have hlast : lastText = 3652364 := by decide
  obtain ⟨hlo, hhi⟩ := id htoday
  unfold cutoffText?
  simp only [tableNumber_of_hasFourDigitYear htoday, graceTextLimit]
  split
  · next hc =>
    rw [isBeforeText, toText, decide_eq_decide, String.lt_iff, String.toList_ofList,
      String.toList_ofList]
    exact toChars_lt_day_iff hdue (.inl rfl) hc.2.2.2.2
  · next hc =>
    rw [isBeforeText, decide_eq_false]
    omega

/-! ## Cutoffs of the calendar -/

theorem number_of_cutoff {today cutoff : Date} {grace : Nat}
    (h : today.cutoff grace = .ok cutoff) : cutoff.number = today.number - grace := by
  unfold Date.cutoff Date.cutoff? Date.subDays? at h
  cases hn : Date.ofNumber? (today.number - grace) with
  | none =>
    rw [hn] at h
    cases h
  | some d =>
    rw [hn] at h
    cases h
    exact number_of_ofNumber? hn

/-- A day with a text is a date, so what is before it has a cutoff. -/
theorem exists_cutoff {due today : Date} {grace : Nat}
    (h : due.isBeforeText (today.cutoffText? grace)) :
    ∃ cutoff, today.cutoff grace = .ok cutoff := by
  have hfirst : Date.first = -95745824 := by decide
  have hlow : firstText = -1721119 := by decide
  have hday : firstText ≤ today.tableNumber - grace := by
    unfold cutoffText? at h
    dsimp only at h
    split at h
    · next hc => exact hc.2.2.2.1
    · cases h
  have hnumber := today.tableNumber_cases
  have hlast := today.le_last
  have hrange : Date.first ≤ today.number - grace ∧ today.number - grace ≤ Date.last := by
    omega
  refine ⟨⟨today.number - grace, hrange.1, hrange.2⟩, ?_⟩
  rw [cutoff, cutoff?, subDays?, ofNumber?, dif_pos hrange]
  rfl

/-- Without a cutoff every date is behind it. -/
theorem lt_of_cutoff_eq_error {today : Date} {grace : Nat} {c : Crash}
    (h : today.cutoff grace = .error c) (due : Date) : today.number - grace < due.number := by
  have hfirst := due.first_le
  have hlast := today.le_last
  by_contra hle
  have hrange : Date.first ≤ today.number - grace ∧ today.number - grace ≤ Date.last := by
    omega
  rw [cutoff, cutoff?, subDays?, ofNumber?, dif_pos hrange] at h
  cases h

end Date

end LoanArrears
