-- SUMMARY: The day before which installments are overdue, as a date and in the textual form that the stored dates are compared with.
import LoanArrears.Calendar.Text

/-!
# Cutoffs

Installments due before the business date less the grace days are overdue.

`Date.cutoff?` is that day as a date. `Date.cutoffText?` is the day as the
tables of the loan book see it, where dates are compared as texts: only business
dates with a four-digit year, without a plus sign, are understood, and the
result has to lie between 25 November -4713 and 31 December 9999. Otherwise
there is no cutoff, and nothing is before it. The tables count days in a way
that differs from the calendar in some years before the year 0 (`tableNumber`).
-/

namespace LoanArrears.Date

def cutoff? (today : Date) (grace : Nat) : Option Date :=
  today.subDays? grace

/-- As many days as this, or more, have no textual cutoff. -/
def graceTextLimit : Nat := 5373485

/-- The range of days with a textual form. -/
def firstText : Int := Civil.dayNumber ⟨-4713, 11, 25⟩

def lastText : Int := Civil.dayNumber ⟨9999, 12, 31⟩

/-- The number of a day as the tables count. They take the leap days that whole
    centuries lack by a quotient toward zero. So of the years before 0, counted
    from March, each that ends a century without a leap day comes out a day late. -/
def tableNumber (d : Date) : Int :=
  let c := d.civil
  let year := if c.month ≤ 2 then c.year - 1 else c.year
  if year < 0 ∧ year % 100 = 0 ∧ year % 400 ≠ 0 then d.number + 1 else d.number

def cutoffText? (today : Date) (grace : Nat) : Option String :=
  let year := today.civil.year
  let day := today.tableNumber - grace
  if -9999 ≤ year ∧ year ≤ 9999 ∧ grace < graceTextLimit ∧ firstText ≤ day ∧ day ≤ lastText then
    some (String.ofList (Civil.ofDayNumber day).toChars)
  else none

/-- The text of a due date is before the cutoff. -/
def isBeforeText (due : Date) (cutoff : Option String) : Bool :=
  match cutoff with
  | some c => due.toText < c
  | none => false

end LoanArrears.Date
