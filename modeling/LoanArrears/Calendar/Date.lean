-- SUMMARY: Calendar dates as day numbers, with year, month and day of the proleptic Gregorian calendar and moving by days.

/-!
# Dates

A `Date` is a number of days, counted from 1 March of the year 0, so that the
leap day is the last day of a counted year. Order and distance of dates are
those of the day numbers. Dates run from 1 January -262143 to 31 December
262142; moving past the ends is `none`.
-/

namespace LoanArrears

/-! ## Year, month and day -/

structure Civil where
  year : Int
  month : Nat
  day : Nat
deriving DecidableEq

namespace Civil

def isLeapYear (year : Int) : Bool :=
  year % 4 = 0 && (year % 100 ≠ 0 || year % 400 = 0)

def daysInMonth (year : Int) (month : Nat) : Nat :=
  if month = 2 then (if isLeapYear year then 29 else 28)
  else if month = 4 ∨ month = 6 ∨ month = 9 ∨ month = 11 then 30
  else 31

/-- The day is one of the calendar. -/
def isValid (c : Civil) : Bool :=
  1 ≤ c.month && c.month ≤ 12 && 1 ≤ c.day && c.day ≤ daysInMonth c.year c.month

/-- Days since 1 March of the year 0. The months of a year are counted from
    March on; each five of them have 153 days. -/
def dayNumber (c : Civil) : Int :=
  let year := if c.month ≤ 2 then c.year - 1 else c.year
  let month := (c.month + 9) % 12
  365 * year + year / 4 - year / 100 + year / 400 + ((153 * month + 2) / 5 : Nat) + c.day - 1

/-- Days in 400 years. -/
def cycleDays : Int := 146097

def ofDayNumber (n : Int) : Civil :=
  let cycle := n / cycleDays
  let rest := (n % cycleDays).toNat
  let year := (rest - rest / 1460 + rest / 36524 - rest / 146096) / 365
  let inYear := rest - (365 * year + year / 4 - year / 100)
  let month := (5 * inYear + 2) / 153
  let day := inYear - (153 * month + 2) / 5 + 1
  let shifted := if month < 10 then month + 3 else month - 9
  { year := cycle * 400 + year + (if shifted ≤ 2 then 1 else 0), month := shifted, day }

end Civil

/-! ## Dates -/

/-- The day number of 1 January -262143. -/
def Date.first : Int := Civil.dayNumber ⟨-262143, 1, 1⟩

/-- The day number of 31 December 262142. -/
def Date.last : Int := Civil.dayNumber ⟨262142, 12, 31⟩

structure Date where
  number : Int
  first_le : Date.first ≤ number
  le_last : number ≤ Date.last
deriving DecidableEq

namespace Date

def ofNumber? (n : Int) : Option Date :=
  if h : first ≤ n ∧ n ≤ last then some ⟨n, h.1, h.2⟩ else none

/-- The date of a day of the calendar. -/
def ofCivil? (c : Civil) : Option Date :=
  if c.isValid then ofNumber? c.dayNumber else none

def civil (d : Date) : Civil :=
  Civil.ofDayNumber d.number

def before (a b : Date) : Bool :=
  a.number < b.number

/-- The earlier of two dates. -/
def min (a b : Date) : Date :=
  if b.before a then b else a

def addDays? (d : Date) (days : Nat) : Option Date :=
  ofNumber? (d.number + days)

def subDays? (d : Date) (days : Nat) : Option Date :=
  ofNumber? (d.number - days)

theorem eq_of_number {a b : Date} (h : a.number = b.number) : a = b := by
  cases a
  cases b
  cases h
  rfl

theorem number_of_ofNumber? {n : Int} {d : Date} (h : ofNumber? n = some d) : d.number = n := by
  unfold ofNumber? at h
  split at h
  · rw [← Option.some.inj h]
  · simp at h

theorem ofNumber?_number (d : Date) : ofNumber? d.number = some d := by
  simp [ofNumber?, d.first_le, d.le_last]

theorem subDays?_zero (d : Date) : d.subDays? 0 = some d := by
  simp [subDays?, ofNumber?_number]

end Date

end LoanArrears
