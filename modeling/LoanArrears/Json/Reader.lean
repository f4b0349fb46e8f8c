-- SUMMARY: The JSON reader: strings with escapes, numbers as integers or binary64, values, arrays and objects.
import LoanArrears.Json.Value

/-!
# Reading JSON

`Json.read` never fails: where a text stops being JSON it leaves a `cut`. So a
decoder that walks over the value meets the faults of a text in the order in
which they are written.

Integers are kept exactly from `-2 ^ 63` to `2 ^ 64 - 1`. Every other number is
taken to binary64 in two steps: the leading digits that fit in 64 bits, and then
one product or quotient with a power of ten.
-/

namespace LoanArrears.Json

open LoanArrears.Text

/-! ## Strings -/

/-- The unit that four hexadecimal digits stand for. -/
def hexUnit? (a b c d : Char) : Option Nat := do
  return (((← hexDigit? a) * 16 + (← hexDigit? b)) * 16 + (← hexDigit? c)) * 16 + (← hexDigit? d)

def isHighSurrogate (u : Nat) : Bool :=
  0xD800 ≤ u && u < 0xDC00

def isLowSurrogate (u : Nat) : Bool :=
  0xDC00 ≤ u && u < 0xE000

def ofSurrogates (high low : Nat) : Char :=
  Char.ofNat (0x10000 + (high - 0xD800) * 0x400 + (low - 0xDC00))

/-- The character that a backslash and `c` stand for. -/
def escaped? : Char → Option Char
  | '"' => some '"'
  | '\\' => some '\\'
  | '/' => some '/'
  | 'b' => some '\x08'
  | 'f' => some '\x0c'
  | 'n' => some '\n'
  | 'r' => some '\r'
  | 't' => some '\t'
  | _ => none

/-- What a string is made of: characters, and units written in hexadecimal. -/
inductive Piece where
  | char (c : Char)
  | unit (u : Nat)

/-- The pieces behind an opening quote, and what follows the closing one. -/
def readPieces : List Char → Option (List Piece × List Char)
  | [] => none
  | '"' :: rest => some ([], rest)
  | '\\' :: 'u' :: a :: b :: c :: d :: rest => do
    let u ← hexUnit? a b c d
    let (pieces, rest) ← readPieces rest
    return (.unit u :: pieces, rest)
  | '\\' :: c :: rest => do
    let c ← escaped? c
    let (pieces, rest) ← readPieces rest
    return (.char c :: pieces, rest)
  | c :: rest => do
    if c.toNat < 0x20 then none
    let (pieces, rest) ← readPieces rest
    return (.char c :: pieces, rest)

/-- The characters that pieces stand for, after a high surrogate or none. Both
    halves of a surrogate pair have to be there. -/
def joinPieces (high : Option Nat) : List Piece → Option (List Char)
  | [] => if high.isSome then none else some []
  | .char c :: rest => if high.isSome then none else (c :: ·) <$> joinPieces none rest
  | .unit u :: rest =>
    match high with
    | some h => if isLowSurrogate u then (ofSurrogates h u :: ·) <$> joinPieces none rest else none
    | none =>
      if isHighSurrogate u then joinPieces (some u) rest
      else if isLowSurrogate u then none
      else (Char.ofNat u :: ·) <$> joinPieces none rest

/-- A string behind its opening quote: its text, if every piece has a meaning,
    and what follows the closing quote. -/
def readString (cs : List Char) : Option (Option String × List Char) := do
  let (pieces, rest) ← readPieces cs
  return ((joinPieces none pieces).map String.ofList, rest)

/-! ## Numbers -/

/-- A number as it is written. -/
structure Number.Parts where
  negative : Bool
  whole : List Char
  places : List Char
  exponent : Option Int

/-- Significands stay below this bound. -/
def Number.significandLimit : Nat := Bound.nat64

/-- Append digits to a significand as long as it stays below the limit; also
    the number of digits left over. -/
def Number.gather (significand : Nat) : List Char → Nat × Nat
  | [] => (significand, 0)
  | c :: rest =>
    let longer := significand * 10 + (c.toNat - '0'.toNat)
    if longer < significandLimit then gather longer rest else (significand, rest.length + 1)

/-- The largest power of ten that is applied at once. -/
def Number.maxPower : Nat := 308

/-- `x` times a power of ten. -/
def Number.scale? (x : Binary64) (exponent : Int) : Option Binary64 :=
  if exponent.natAbs ≤ maxPower then do
    let power ← Binary64.ofNat? (tenTo exponent.natAbs)
    if 0 ≤ exponent then x.mul? power else x.div? power
  else if x.isZero then some x
  else if 0 ≤ exponent then none
  else do
    let power ← Binary64.ofNat? (tenTo maxPower)
    let smaller ← x.div? power
    scale? smaller (exponent + maxPower)
termination_by (-exponent).toNat
decreasing_by simp only [maxPower]; omega

def Number.Parts.magnitude? (p : Number.Parts) : Option Binary64 := do
  let (head, left) := Number.gather 0 p.whole
  let (significand, unused) := Number.gather head p.places
  let taken := p.places.length - unused
  let x ← Binary64.ofNat? significand
  Number.scale? x (left - taken + p.exponent.getD 0)

/-- The number, unless it is past the largest finite one. -/
def Number.Parts.number? (p : Number.Parts) : Option Number :=
  let v := value p.whole
  if p.places = [] ∧ p.exponent = none ∧ !p.negative ∧ v < Bound.nat64 then some (.integer v)
  else if p.places = [] ∧ p.exponent = none ∧ p.negative ∧ 0 < v ∧ v ≤ Bound.int64 then
    some (.integer (-v))
  else p.magnitude?.map (.fraction p.negative)

/-- The places behind a point, at least one. -/
def readPlaces? : List Char → Option (List Char × List Char)
  | '.' :: rest =>
    let places := rest.takeWhile Char.isDigit
    if places = [] then none else some (places, rest.dropWhile Char.isDigit)
  | rest => some ([], rest)

def readExponent? : List Char → Option (Option Int × List Char)
  | c :: rest =>
    if c = 'e' ∨ c = 'E' then
      let (negative, rest) := match rest with
        | '-' :: rest => (true, rest)
        | '+' :: rest => (false, rest)
        | _ => (false, rest)
      let digits := rest.takeWhile Char.isDigit
      if digits = [] then none
      else
        let v : Int := value digits
        some (some (if negative then -v else v), rest.dropWhile Char.isDigit)
    else some (none, c :: rest)
  | [] => some (none, [])

/-- A number in front of a text; an integer part has no zeros in front. -/
def readNumber? (cs : List Char) : Option (Number.Parts × List Char) := do
  let (negative, cs) := match cs with
    | '-' :: rest => (true, rest)
    | _ => (false, cs)
  let whole := cs.takeWhile Char.isDigit
  if whole = [] ∨ (whole.head? = some '0' ∧ whole ≠ ['0']) then none
  let (places, rest) ← readPlaces? (cs.dropWhile Char.isDigit)
  let (exponent, rest) ← readExponent? rest
  return (⟨negative, whole, places, exponent⟩, rest)

/-! ## Values -/

/-- The four characters that may stand between the parts of a document. -/
def isSpace (c : Char) : Bool :=
  c = ' ' || c = '\n' || c = '\t' || c = '\r'

def skipSpace (cs : List Char) : List Char :=
  cs.dropWhile isSpace

/-- The place of a field whose name breaks off. -/
def nameless : String × Json :=
  ("", .unnamed .cut)

mutual

/-- The value in front of a text, and what follows it. The first argument
    bounds the steps. -/
def readValue : Nat → List Char → Json × List Char
  | 0, _ => (.cut, [])
  | steps + 1, cs =>
    match skipSpace cs with
    | 'n' :: 'u' :: 'l' :: 'l' :: rest => (.null, rest)
    | 't' :: 'r' :: 'u' :: 'e' :: rest => (.bool true, rest)
    | 'f' :: 'a' :: 'l' :: 's' :: 'e' :: rest => (.bool false, rest)
    | '"' :: rest =>
      match readString rest with
      | none => (.cut, [])
      | some (none, rest) => (.unreadable, rest)
      | some (some s, rest) => (.str s, rest)
    | '[' :: rest =>
      match skipSpace rest with
      | ']' :: rest => (.arr [], rest)
      | _ =>
        let (items, rest) := readItems steps rest
        (.arr items, rest)
    | '{' :: rest =>
      match skipSpace rest with
      | '}' :: rest => (.obj [], rest)
      | _ =>
        let (fields, rest) := readFields steps rest
        (.obj fields, rest)
    | other =>
      match readNumber? other with
      | none => (.cut, [])
      | some (parts, rest) =>
        match parts.number? with
        | none => (.unreadable, rest)
        | some n => (.num n, rest)

def readItems : Nat → List Char → List Json × List Char
  | 0, _ => ([.cut], [])
  | steps + 1, cs =>
    let (v, rest) := readValue steps cs
    match skipSpace rest with
    | ',' :: rest =>
      let (items, rest) := readItems steps rest
      (v :: items, rest)
    | ']' :: rest => ([v], rest)
    | _ => ([v, .cut], [])

def readFields : Nat → List Char → List (String × Json) × List Char
  | 0, _ => ([nameless], [])
  | steps + 1, cs =>
    match skipSpace cs with
    | '"' :: rest =>
      match readString rest with
      | some (name, rest) =>
        let field (v : Json) : String × Json := match name with
          | some name => (name, v)
          | none => ("", .unnamed v)
        match skipSpace rest with
        | ':' :: rest =>
          let (v, rest) := readValue steps rest
          match skipSpace rest with
          | ',' :: rest =>
            let (fields, rest) := readFields steps rest
            (field v :: fields, rest)
          | '}' :: rest => ([field v], rest)
          | _ => ([field v, nameless], [])
        | _ => ([field .cut], [])
      | none => ([nameless], [])
    | _ => ([nameless], [])

end

/-- A text read as one value, and whether something else follows it. -/
structure Document where
  value : Json
  trailing : Bool

def read (text : String) : Document :=
  let cs := text.toList
  let (v, rest) := readValue (2 * cs.length + 1) cs
  ⟨v, skipSpace rest ≠ []⟩

end LoanArrears.Json
