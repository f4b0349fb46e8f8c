-- SUMMARY: Decimal notation: printing a decimal with all its places, and the two readers (plain and with an exponent).
import LoanArrears.Decimal.Basic
import LoanArrears.Text.Numeral

/-!
# Decimal notation

`Decimal.toText` writes a sign, the integer digits and exactly `scale` places.

`Decimal.readPlain?` reads digits with at most one point. A place that no
longer fits ends the reading: its digit says whether the places before it are
rounded up, and the digits behind it do not count. `Decimal.read?` also takes a
power of ten behind the digits, as in `1.5e3`.
-/

namespace LoanArrears.Decimal

open LoanArrears.Text

/-! ## Printing -/

def toChars (a : Decimal) : List Char :=
  let digits := padded (a.scale + 1) a.coeff.natAbs
  let whole := digits.take (digits.length - a.scale)
  let places := digits.drop (digits.length - a.scale)
  let sign := if a.coeff < 0 ∨ a.minusZero then ['-'] else []
  sign ++ whole ++ if a.scale = 0 then [] else '.' :: places

def toText (a : Decimal) : String :=
  String.ofList a.toChars

/-! ## Plain notation -/

/-- A number without its sign, being read: the digits so far and how many of
    them are places. -/
structure Magnitude where
  coeff : Nat
  scale : Nat

/-- Coefficients below this bound are short. -/
def shortLimit : Nat := 1844674407370954906

/-- All digits but the last make a short number. -/
def Magnitude.isShort (m : Magnitude) : Bool :=
  m.coeff / 10 < shortLimit

/-- End the reading at the first digit that no longer fits: from 5 on the last
    place goes up. Only digits and separators may follow it. -/
def Magnitude.roundOff? (m : Magnitude) (digit : Nat) (rest : List Char) : Option Magnitude := do
  if !rest.all fun c => c.isDigit || c = '_' then none
  if digit < 5 then return m
  let raised := m.coeff + 1
  if raised < coeffLimit then return { m with coeff := raised }
  if m.scale = 0 then none
  return ⟨(raised + 4) / 10, m.scale - 1⟩

/-- The places behind the point. `seen` says whether there was a digit yet.
    Behind the last place of a short number a separator counts as the digit 0. -/
def readPlaces? (m : Magnitude) (seen : Bool) : List Char → Option Magnitude
  | [] => if seen then some m else none
  | c :: rest =>
    match digit? c with
    | some d =>
      let longer := m.coeff * 10 + d
      if m.scale < maxScale ∧ longer < coeffLimit then readPlaces? ⟨longer, m.scale + 1⟩ true rest
      else m.roundOff? d rest
    | none =>
      if c = '_' ∧ seen then
        if m.scale = maxScale ∧ m.isShort then m.roundOff? 0 rest else readPlaces? m seen rest
      else none

/-- The digits in front of the point. -/
def readWhole? (coeff : Nat) (seen : Bool) : List Char → Option Magnitude
  | [] => if seen then some ⟨coeff, 0⟩ else none
  | c :: rest =>
    match digit? c with
    | some d =>
      let longer := coeff * 10 + d
      if longer < coeffLimit then readWhole? longer true rest else none
    | none =>
      if c = '.' then readPlaces? ⟨coeff, 0⟩ seen rest
      else if c = '_' ∧ seen then readWhole? coeff seen rest
      else none

def readPlain? (cs : List Char) : Option Decimal := do
  let (negative, digits) := match cs with
    | '-' :: rest => (true, rest)
    | '+' :: rest => (false, rest)
    | _ => (false, cs)
  let m ← readWhole? 0 false digits
  mk? (if negative then -m.coeff else m.coeff) m.scale

/-! ## Notation with an exponent -/

/-- Exponents stay below this bound. -/
def exponentLimit : Nat := Bound.nat32

/-- `a` times a power of ten that is written behind `e`. A negative power adds
    places and rounds off those that do not fit; a positive one takes places away
    and then multiplies. -/
def scaleBy? (a : Decimal) (exponent : List Char) : Option Decimal :=
  match exponent with
  | '-' :: rest => do
    let e ← readBelow? exponentLimit rest
    a.divTenTo? e
  | _ => do
    let e ← readBelow? exponentLimit exponent
    if e ≤ a.scale then mk? a.coeff (a.scale - e)
    else if maxScale < e then none
    else mk? (a.coeff * tenTo (e - a.scale)) 0

def isExponentMark (c : Char) : Bool :=
  c = 'e' || c = 'E'

def readScientific? (cs : List Char) : Option Decimal :=
  match cs.dropWhile (!isExponentMark ·) with
  | [] => none
  | _ :: exponent => do
    let a ← readPlain? (cs.takeWhile (!isExponentMark ·))
    a.scaleBy? exponent

def read? (text : String) : Option Decimal :=
  readPlain? text.toList <|> readScientific? text.toList

end LoanArrears.Decimal
