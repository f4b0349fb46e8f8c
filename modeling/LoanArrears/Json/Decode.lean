-- SUMMARY: Decoders from JSON to typed values: scalars, lists, records by field name, enumerations and tagged unions.
import LoanArrears.Json.Reader

/-!
# Decoding

A `Decoder` turns a JSON value into a typed one or says why not. Records are
described by their `Fields`, put together with `<$>` and `<*>` in the order of
declaration. They are read from an object, whatever the order of its fields, or
from an array of the values in order. Fields that a record does not have are
passed over.

An object is decoded in the order in which it is written: a repeated field or a
bad value counts where it stands, and only at the end a field that is missing.
-/

namespace LoanArrears

inductive DecodeError where
  | missingField (name : String)
  | duplicateField (name : String)
  | unknownVariant (name : String)
  | malformed
deriving DecidableEq

def DecodeError.message : DecodeError → String
  | .missingField name => "missing field `" ++ name ++ "`"
  | .duplicateField name => "duplicate field `" ++ name ++ "`"
  | .unknownVariant name => "unknown variant `" ++ name ++ "`"
  | .malformed => "malformed"

abbrev Decoder (α : Type) : Type :=
  Json → Except DecodeError α

namespace Decoder

/-! ## Scalars and lists -/

def ofOption : Option α → Except DecodeError α
  | some a => .ok a
  | none => .error .malformed

/-- An integer from `lo` up to and without `hi`. -/
def intIn (lo hi : Int) : Decoder Int
  | .num (.integer v) => if lo ≤ v ∧ v < hi then .ok v else .error .malformed
  | _ => .error .malformed

def int64 : Decoder Int :=
  intIn (-Bound.int64) Bound.int64

def natBelow (limit : Nat) : Decoder Nat :=
  fun v => Int.toNat <$> intIn 0 limit v

def nat32 : Decoder Nat :=
  natBelow Bound.nat32

def nat64 : Decoder Nat :=
  natBelow Bound.nat64

def bool : Decoder Bool
  | .bool b => .ok b
  | _ => .error .malformed

def string : Decoder String
  | .str s => .ok s
  | _ => .error .malformed

/-- A string in a notation of its own. -/
def text (read? : String → Option α) : Decoder α
  | .str s => ofOption (read? s)
  | _ => .error .malformed

def option (d : Decoder α) : Decoder (Option α)
  | .null => .ok none
  | v => some <$> d v

def list (d : Decoder α) : Decoder (List α)
  | .arr items => items.mapM d
  | _ => .error .malformed

/-- One of several names, also as an object with the name and `null`. A map is
    looked at only if it has no other fields. -/
def choice (variants : List (String × α)) : Decoder α
  | .str name => variant name
  | .obj ((_, .unnamed _) :: _) => .error .malformed
  | .obj [(name, v)] | .map [(name, v)] => do
    let a ← variant name
    match v with
    | .null => .ok a
    | _ => .error .malformed
  | .obj ((name, _) :: _ :: _) => do
    let _ ← variant name
    .error .malformed
  | _ => .error .malformed
where
  variant (name : String) : Except DecodeError α :=
    match variants.lookup name with
    | some a => .ok a
    | none => .error (.unknownVariant name)

end Decoder

/-! ## Records -/

/-- How a record is put together from named fields. `Slots` holds the fields
    found so far. -/
structure Fields (α : Type) : Type 1 where
  Slots : Type
  empty : Slots
  /-- Take a field of an object, or `none` if the record has no such field. -/
  put : String → Json → Slots → Option (Except DecodeError Slots)
  finish : Slots → Except DecodeError α
  /-- Take the fields from the front of a list of values. -/
  ofItems : List Json → Except DecodeError (α × List Json)

namespace Fields

/-- A field; `absent` is what the record holds without it, `short` what it holds
    when a list of values ends before it. -/
def one (name : String) (d : Decoder α) (absent short : Except DecodeError α) : Fields α where
  Slots := Option α
  empty := none
  put n v slot :=
    if n = name then
      some (if slot.isSome then .error (.duplicateField name) else some <$> d v)
    else none
  finish
    | some a => .ok a
    | none => absent
  ofItems
    | [] => (·, []) <$> short
    | v :: rest => (·, rest) <$> d v

def required (name : String) (d : Decoder α) : Fields α :=
  one name d (.error (.missingField name)) (.error .malformed)

/-- A field that may be missing or `null`. -/
def nullable (name : String) (d : Decoder α) : Fields (Option α) :=
  one name d.option (.ok none) (.error .malformed)

def withDefault (name : String) (d : Decoder α) (a : α) : Fields α :=
  one name d (.ok a) (.ok a)

protected def pure (a : α) : Fields α where
  Slots := Unit
  empty := ()
  put _ _ _ := none
  finish _ := .ok a
  ofItems items := .ok (a, items)

protected def map (g : α → β) (f : Fields α) : Fields β where
  Slots := f.Slots
  empty := f.empty
  put := f.put
  finish slots := g <$> f.finish slots
  ofItems items := (fun (a, rest) => (g a, rest)) <$> f.ofItems items

protected def seq (g : Fields (α → β)) (f : Fields α) : Fields β where
  Slots := g.Slots × f.Slots
  empty := (g.empty, f.empty)
  put n v slots :=
    match g.put n v slots.1 with
    | some r => some ((·, slots.2) <$> r)
    | none => (f.put n v slots.2).map fun r => (slots.1, ·) <$> r
  finish slots := do
    let h ← g.finish slots.1
    h <$> f.finish slots.2
  ofItems items := do
    let (h, rest) ← g.ofItems items
    let (a, rest) ← f.ofItems rest
    return (h a, rest)

instance : Applicative Fields where
  pure := Fields.pure
  map := Fields.map
  seq g f := Fields.seq g (f ())

def ofObject (f : Fields α) (slots : f.Slots) : List (String × Json) → Except DecodeError α
  | [] => f.finish slots
  | (_, .unnamed _) :: _ => .error .malformed
  | (name, v) :: rest =>
    match f.put name v slots with
    | some r => do f.ofObject (← r) rest
    | none => if v.complete then f.ofObject slots rest else .error .malformed

def ofArray (f : Fields α) (items : List Json) : Except DecodeError α := do
  match ← f.ofItems items with
  | (a, []) => .ok a
  | _ => .error .malformed

end Fields

def Decoder.record (f : Fields α) : Decoder α
  | .obj fields | .map fields => f.ofObject f.empty fields
  | .arr items => f.ofArray items
  | _ => .error .malformed

/-! ## Tagged unions -/

namespace Decoder

/-- The name of a variant. -/
def variantName (known : List String) : Decoder String
  | .str s => if s ∈ known then .ok s else .error (.unknownVariant s)
  | _ => .error .malformed

/-- Take the tag out of the fields of an object. The other fields are kept as
    they stand, so all of them have to be sound. -/
def takeTag (tag : String) (known : List String) (found : Option String) :
    List (String × Json) → Except DecodeError (Option String × List (String × Json))
  | [] => .ok (found, [])
  | (name, v) :: rest =>
    if name = tag then
      if found.isSome then .error (.duplicateField tag)
      else do takeTag tag known (some (← variantName known v)) rest
    else if v.sound (Json.maxDepth - 1) then do
      let (found, others) ← takeTag tag known found rest
      return (found, (name, v) :: others)
    else .error .malformed

/-- A record whose fields are those of the variant that the tag names; also an
    array of the tag and the values of the fields. -/
def tagged (tag : String) (variants : List (String × Fields α)) : Decoder α
  | .obj fields | .map fields => do
    let (found, others) ← takeTag tag (variants.map (·.1)) none fields
    match found with
    | none => .error (.missingField tag)
    | some name => match variants.lookup name with
      | some f => f.ofObject f.empty others
      | none => .error (.unknownVariant name)
  | .arr [] => .error (.missingField tag)
  | .arr (first :: items) => do
    let name ← variantName (variants.map (·.1)) first
    if !Json.soundItems (Json.maxDepth - 1) items then .error .malformed
    else match variants.lookup name with
      | some f => f.ofArray items
      | none => .error (.unknownVariant name)
  | _ => .error .malformed

/-- Decode a text that is one JSON value. -/
def ofText (d : Decoder α) (text : String) : Except DecodeError α := do
  let doc := Json.read text
  let a ← d doc.value
  if doc.trailing then .error .malformed else .ok a

end Decoder

end LoanArrears
