-- SUMMARY: Dates are read back from their texts, years of any number of digits included.
import LoanArrears.Proofs.Calendar.TextOrder

/-!
# Reading dates back

Months and days are written with two digits and years with four, or with a sign and as many as
they need. The reader takes as many digits as there can be, so each number ends where it was
written to end.
-/

namespace LoanArrears

open Text

namespace Text

theorem exists_cons_padded (width n : Nat) : ∃ d ds, padded width n = d :: ds ∧ d.isDigit := by
  obtain ⟨d, ds, hcons⟩ := List.exists_cons_of_ne_nil
    (show padded width n ≠ [] by simp [padded, numeral_ne_nil])
  exact ⟨d, ds, hcons, isDigit_of_mem_padded (hcons ▸ List.mem_cons_self)⟩

theorem isBlank_of_isDigit {c : Char} (h : c.isDigit) : isBlank c = false := by
  obtain ⟨hlo, hhi⟩ := Char.isDigit_iff_toNat.1 h
  have hzero : '0'.toNat = 48 := rfl
  have hnine : '9'.toNat = 57 := rfl
  simp only [isBlank, blankRanges, List.any_cons, List.any_nil, Bool.or_false, Bool.or_eq_false_iff,
    Bool.and_eq_false_iff, decide_eq_false_iff_not]
  omega

theorem trimFront_padded (width n : Nat) (rest : List Char) :
    trimFront (padded width n ++ rest) = padded width n ++ rest := by
  obtain ⟨d, ds, hcons, hd⟩ := exists_cons_padded width n
  rw [hcons, List.cons_append, trimFront_of_not_blank (isBlank_of_isDigit hd)]

end Text

namespace Date

/-- A padded number is read if the digits that are taken end where it does. -/
theorem readDigits_of_takeWhile {width n : Nat} {limit : Option Nat} {rest : List Char}
    (h : ((padded width n ++ rest).take (limit.getD (padded width n ++ rest).length)).takeWhile
      Char.isDigit = padded width n) :
    readDigits limit (padded width n ++ rest) = .ok (n, rest) := by
  obtain ⟨d, ds, hcons, hd⟩ := exists_cons_padded width n
  rw [readDigits.eq_def, hcons, List.cons_append]
  dsimp only
  rw [if_pos hd]
  rw [hcons, List.cons_append] at h
  rw [h, ← hcons, value_padded, ← List.cons_append, ← hcons, List.drop_left]

/-- A number with all the digits that there can be. -/
theorem readDigits_padded {width n : Nat} (hw : 0 < width) (hn : n < Nat.pow 10 width)
    (rest : List Char) : readDigits (some width) (padded width n ++ rest) = .ok (n, rest) := by
  refine readDigits_of_takeWhile ?_
  have hlen := length_padded hw hn
  rw [Option.getD_some, List.take_left' hlen]
  have hdigits := fun c => @isDigit_of_mem_padded width n c
  have happend := @List.takeWhile_append_of_pos _ _ (padded width n) [] hdigits
  simpa using happend

/-- A number with any number of digits in front of something else. -/
theorem readDigits_none {width n : Nat} {c : Char} (hc : c.isDigit = false) (rest : List Char) :
    readDigits none (padded width n ++ c :: rest) = .ok (n, c :: rest) := by
  refine readDigits_of_takeWhile ?_
  rw [Option.getD_none, List.take_length,
    List.takeWhile_append_of_pos fun _ => @isDigit_of_mem_padded width n _]
  simp [hc]

/-- The reader of years with any limit. The checker would count down from the real one. -/
def readYearWithin (limit : Int) (cs : List Char) : Except DateError (Int × List Char) := do
  let (year, rest) ← match cs with
    | '-' :: rest => do
      let (n, rest) ← readDigits none rest
      pure (-(n : Int), rest)
    | '+' :: rest => do
      let (n, rest) ← readDigits none rest
      pure ((n : Int), rest)
    | _ => do
      let (n, rest) ← readDigits (some 4) cs
      pure ((n : Int), rest)
  if -limit ≤ year ∧ year < limit then .ok (year, rest) else .error .outOfRange

/-- A year is read if it is within the limit. -/
theorem readYearWithin_yearChars {limit year : Int} (hyear : -limit ≤ year ∧ year < limit)
    (rest : List Char) :
    readYearWithin limit (Civil.yearChars year ++ '-' :: rest) = .ok (year, '-' :: rest) := by
  by_cases hfour : 0 ≤ year ∧ year ≤ 9999
  · obtain ⟨d, ds, hcons, hd⟩ := exists_cons_padded 4 year.natAbs
    have hunsigned {sign : Char} (hsign : sign.isDigit = false) (tail : List Char) :
        padded 4 year.natAbs ++ '-' :: rest ≠ sign :: tail := by
      intro heq
      rw [hcons] at heq
      rw [(List.cons.inj heq).1, hsign] at hd
      cases hd
    rw [Civil.yearChars, if_pos hfour, readYearWithin,
      @readDigits_padded 4 _ (by decide) (by simp; omega)]
    · simp only [bind, Except.bind, pure, Except.pure]
      rw [Int.natAbs_of_nonneg hfour.1, if_pos hyear]
    · exact hunsigned (by decide)
    · exact hunsigned (by decide)
  · rw [Civil.yearChars, if_neg hfour]
    by_cases hneg : year < 0
    · rw [if_pos hneg, List.cons_append, readYearWithin, readDigits_none (by decide)]
      simp only [bind, Except.bind, pure, Except.pure]
      rw [show -(year.natAbs : Int) = year by omega, if_pos hyear]
    · rw [if_neg hneg, List.cons_append, readYearWithin, readDigits_none (by decide)]
      simp only [bind, Except.bind, pure, Except.pure]
      rw [Int.natAbs_of_nonneg (Int.not_lt.1 hneg), if_pos hyear]

/-- A month or a day is read if there is one of that number. -/
theorem readPart_padded {limit n : Nat} (hlimit : limit < 100) (h : 1 ≤ n ∧ n ≤ limit)
    (rest : List Char) : readPart limit (padded 2 n ++ rest) = .ok (n, rest) := by
  rw [readPart, @readDigits_padded 2 _ (by decide) (by simp; omega)]
  exact if_pos h

/-- The years of dates. -/
theorem year_civil_bounds (d : Date) : -yearLimit ≤ d.civil.year ∧ d.civil.year < yearLimit := by
  have hfirst := Civil.year_mono d.first_le
  have hlast := Civil.year_mono d.le_last
  rw [show (Civil.ofDayNumber Date.first).year = -262143 by decide] at hfirst
  rw [show (Civil.ofDayNumber Date.last).year = 262142 by decide] at hlast
  unfold civil yearLimit
  omega

theorem ofCivil?_civil (d : Date) : ofCivil? d.civil = some d := by
  obtain ⟨hvalid, hnumber⟩ := Civil.ofDayNumber_spec d.number
  rw [ofCivil?, civil, if_pos hvalid, hnumber, ofNumber?_number]

/-- The front of a text of a date is never blank. -/
theorem trimFront_yearChars (year : Int) (rest : List Char) :
    trimFront (Civil.yearChars year ++ rest) = Civil.yearChars year ++ rest := by
  rw [Civil.yearChars]
  split
  · exact trimFront_padded 4 year.natAbs rest
  · split <;> exact trimFront_of_not_blank (by decide)

theorem readWith_toChars (d : Date) : readWith trimFront d.civil.toChars = .ok d := by
  have hvalid : d.civil.isValid := (Civil.ofDayNumber_spec d.number).1
  simp only [Civil.isValid, Bool.and_eq_true, decide_eq_true_eq] at hvalid
  obtain ⟨⟨⟨hmonth, hmonth'⟩, hday⟩, hday'⟩ := hvalid
  have hday' := Nat.le_trans hday' (Civil.daysInMonth_le _ _)
  have hhyphen (rest : List Char) : readHyphen (trimFront ('-' :: rest)) = .ok rest := by
    rw [trimFront_of_not_blank (by decide)]
    rfl
  have hend : padded 2 d.civil.day = padded 2 d.civil.day ++ [] := (List.append_nil _).symm
  have hyear (rest : List Char) : readYear (Civil.yearChars d.civil.year ++ '-' :: rest) =
      .ok (d.civil.year, '-' :: rest) := readYearWithin_yearChars d.year_civil_bounds rest
  simp only [readWith, Civil.toChars, List.append_assoc, List.cons_append, trimFront_yearChars,
    hyear, bind, Except.bind, hhyphen, trimFront_padded]
  rw [readPart_padded (by decide) ⟨hmonth, hmonth'⟩]
  simp only [hhyphen]
  rw [hend, trimFront_padded, readPart_padded (by decide) ⟨hday, hday'⟩]
  simp only [trimFront, List.dropWhile_nil, ne_eq, not_true, if_false]
  rw [show (⟨d.civil.year, d.civil.month, d.civil.day⟩ : Civil) = d.civil from rfl, ofCivil?_civil]

/-- A date is read back from its text. -/
theorem read?_toText (d : Date) : read? d.toText = some d := by
  rw [read?, toText, String.toList_ofList, readWith_toChars]
  rfl

end Date

end LoanArrears
