-- SUMMARY: Dates in the form year-month-day: printing and the readers for documents and for the command line.
import LoanArrears.Calendar.Date
import LoanArrears.Text.Blank
import LoanArrears.Text.Numeral

/-!
# Dates as text

A date is written as year, month and day with hyphens between them. Years from
0 to 9999 have four digits; any other year has a sign.

Readers take months and days of one or two digits, and blanks in front of each
number. In a document there may also be blanks in front of the hyphens and at
the end.
-/

namespace LoanArrears

open LoanArrears.Text

/-! ## Printing -/

def Civil.yearChars (year : Int) : List Char :=
  if 0 ≤ year ∧ year ≤ 9999 then padded 4 year.natAbs
  else (if year < 0 then '-' else '+') :: padded 4 year.natAbs

def Civil.toChars (c : Civil) : List Char :=
  yearChars c.year ++ '-' :: padded 2 c.month ++ '-' :: padded 2 c.day

def Date.toText (d : Date) : String :=
  String.ofList d.civil.toChars

/-! ## Reading -/

inductive DateError where
  | invalidCharacters
  | outOfRange
  | trailingInput
  | endOfInput
deriving DecidableEq

def DateError.message : DateError → String
  | .invalidCharacters => "input contains invalid characters"
  | .outOfRange => "input is out of range"
  | .trailingInput => "trailing input"
  | .endOfInput => "premature end of input"

namespace Date

/-- Digits in front of a text, at most `width` of them if there is a limit. -/
def readDigits (width : Option Nat) (cs : List Char) : Except DateError (Nat × List Char) :=
  match cs with
  | [] => .error .endOfInput
  | c :: _ =>
    if c.isDigit then
      let digits := (cs.take (width.getD cs.length)).takeWhile Char.isDigit
      .ok (value digits, cs.drop digits.length)
    else .error .invalidCharacters

/-- Two to the power 31. -/
def yearLimit : Int := 2147483648

/-- A year: at most four digits, or a sign and any number of them. -/
def readYear (cs : List Char) : Except DateError (Int × List Char) := do
  let (year, rest) ← match cs with
    | '-' :: rest => do
      let (n, rest) ← readDigits none rest
      pure (-(n : Int), rest)
    | '+' :: rest => do
      let (n, rest) ← readDigits none rest
      pure ((n : Int), rest)
    | _ => do
      let (n, rest) ← readDigits (some 4) cs
      pure ((n : Int), rest)
  if -yearLimit ≤ year ∧ year < yearLimit then .ok (year, rest) else .error .outOfRange

/-- A month or a day, from 1 to `limit`. -/
def readPart (limit : Nat) (cs : List Char) : Except DateError (Nat × List Char) := do
  let (n, rest) ← readDigits (some 2) cs
  if 1 ≤ n ∧ n ≤ limit then .ok (n, rest) else .error .outOfRange

def readHyphen : List Char → Except DateError (List Char)
  | [] => .error .endOfInput
  | c :: rest => if c = '-' then .ok rest else .error .invalidCharacters

/-- The three numbers of a date; `gap` removes what may stand in front of a
    hyphen and at the end. -/
def readWith (gap : List Char → List Char) (cs : List Char) : Except DateError Date := do
  let (year, rest) ← readYear (trimFront cs)
  let rest ← readHyphen (gap rest)
  let (month, rest) ← readPart 12 (trimFront rest)
  let rest ← readHyphen (gap rest)
  let (day, rest) ← readPart 31 (trimFront rest)
  if gap rest ≠ [] then .error .trailingInput
  else match ofCivil? ⟨year, month, day⟩ with
    | some d => .ok d
    | none => .error .outOfRange

/-- A date in a document. -/
def read? (text : String) : Option Date :=
  (readWith trimFront text.toList).toOption

/-- A date on the command line. -/
def readStrict (text : String) : Except DateError Date :=
  readWith id text.toList

end Date

end LoanArrears
