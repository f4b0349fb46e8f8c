-- SUMMARY: JSON values as they are read: numbers, and the marks for a text that breaks off.
import LoanArrears.Binary64

/-!
# JSON values

An `obj` holds its fields in the order in which they were written, repeated ones
included. A `map` is an object that was read as a whole: its fields are in the
order of their names, the last one of each name. Three constructors stand for
what cannot be a value:

* `cut` is the place where a text stops being JSON. Nothing follows it.
* `unreadable` is a complete number or string without a meaning: a number past
  the largest finite one, or a text with half of a surrogate pair.
* `unnamed` holds the value of a field whose name is such a text, or breaks off.

A decoder that never looks at a field passes over an unreadable value or name in
it, but not over a cut.
-/

namespace LoanArrears

inductive Json.Number where
  | integer (v : Int)
  | fraction (negative : Bool) (magnitude : Binary64)
deriving DecidableEq

inductive Json where
  | null
  | bool (b : Bool)
  | num (n : Json.Number)
  | str (s : String)
  | arr (items : List Json)
  | obj (fields : List (String × Json))
  | map (fields : List (String × Json))
  | unreadable
  | unnamed (v : Json)
  | cut

namespace Json

def int (v : Int) : Json := .num (.integer v)

def nat (n : Nat) : Json := int n

instance : Coe String Json := ⟨.str⟩
instance : Coe Bool Json := ⟨.bool⟩

def opt (f : α → Json) : Option α → Json
  | none => .null
  | some a => f a

def list (f : α → Json) (as : List α) : Json :=
  .arr (as.map f)

/-! ## Shape -/

mutual

/-- The text of the value is complete. -/
def complete : Json → Bool
  | .cut => false
  | .arr items => completeItems items
  | .obj fields | .map fields => completeFields fields
  | .unnamed v => complete v
  | _ => true

def completeItems : List Json → Bool
  | [] => true
  | v :: rest => complete v && completeItems rest

def completeFields : List (String × Json) → Bool
  | [] => true
  | (_, v) :: rest => complete v && completeFields rest

end

mutual

/-- The value is complete, every part of it has a meaning, and arrays and
    objects are nested at most `depth` deep. -/
def sound (depth : Nat) : Json → Bool
  | .cut => false
  | .unreadable | .unnamed _ => false
  | .arr items => match depth with
    | 0 => false
    | d + 1 => soundItems d items
  | .obj fields | .map fields => match depth with
    | 0 => false
    | d + 1 => soundFields d fields
  | _ => true

def soundItems (depth : Nat) : List Json → Bool
  | [] => true
  | v :: rest => sound depth v && soundItems depth rest

def soundFields (depth : Nat) : List (String × Json) → Bool
  | [] => true
  | (_, v) :: rest => sound depth v && soundFields depth rest

end

/-- Arrays and objects that are kept as a whole are nested at most this deep. -/
def maxDepth : Nat := 127

/-! ## Fields by name -/

/-- Put a field in the order of names; a field of the same name is replaced. -/
def insertField (name : String) (v : Json) : List (String × Json) → List (String × Json)
  | [] => [(name, v)]
  | (n, w) :: rest =>
    if name < n then (name, v) :: (n, w) :: rest
    else if name = n then (name, v) :: rest
    else (n, w) :: insertField name v rest

mutual

/-- The same value with every object as a map. -/
def sorted : Json → Json
  | .arr items => .arr (sortedItems items)
  | .obj fields | .map fields => .map (sortedFields [] fields)
  | v => v

def sortedItems : List Json → List Json
  | [] => []
  | v :: rest => sorted v :: sortedItems rest

def sortedFields (done : List (String × Json)) : List (String × Json) → List (String × Json)
  | [] => done
  | (n, v) :: rest => sortedFields (insertField n (sorted v) done) rest

end

/-- The field of that name, if the value is an object that has one. -/
def field? (name : String) : Json → Option Json
  | .obj fields | .map fields => fields.lookup name
  | _ => none

/-- The field of that name; `null` where there is none. -/
def field (name : String) (v : Json) : Json :=
  (v.field? name).getD .null

end Json

end LoanArrears
