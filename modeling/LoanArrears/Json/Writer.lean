-- SUMMARY: The JSON writer: on one line, and indented by two spaces a level.
import LoanArrears.Json.Value

/-!
# Writing JSON

`Json.render` writes a value on one line without spaces, `Json.renderIndented`
puts every item and every field on a line of its own. Only quotes, backslashes
and control characters are escaped.
-/

namespace LoanArrears.Json

open LoanArrears.Text

def hexDigit (n : Nat) : Char :=
  Nat.digitChar n

def escape (c : Char) : List Char :=
  if c = '"' then ['\\', '"']
  else if c = '\\' then ['\\', '\\']
  else if c = '\x08' then ['\\', 'b']
  else if c = '\x0c' then ['\\', 'f']
  else if c = '\n' then ['\\', 'n']
  else if c = '\r' then ['\\', 'r']
  else if c = '\t' then ['\\', 't']
  else if c.toNat < 0x20 then
    ['\\', 'u', '0', '0', hexDigit (c.toNat / 16), hexDigit (c.toNat % 16)]
  else [c]

def quote (s : String) : List Char :=
  '"' :: s.toList.flatMap escape ++ ['"']

def Number.render : Number → List Char
  | .integer v => signed v
  | .fraction negative x => if negative then '-' :: x.toChars else x.toChars

/-- A line break and the indentation of a level. -/
def newline (level : Nat) : List Char :=
  '\n' :: List.replicate (2 * level) ' '

mutual

def chars : Json → List Char
  | .bool true => ['t', 'r', 'u', 'e']
  | .bool false => ['f', 'a', 'l', 's', 'e']
  | .num n => n.render
  | .str s => quote s
  | .arr [] => ['[', ']']
  | .arr (v :: rest) => '[' :: chars v ++ itemChars rest
  | .obj [] | .map [] => ['{', '}']
  | .obj ((name, v) :: rest) | .map ((name, v) :: rest) =>
    '{' :: quote name ++ ':' :: chars v ++ fieldChars rest
  | .null | .unreadable | .unnamed _ | .cut => ['n', 'u', 'l', 'l']

/-- The items behind the first one, with the closing bracket. -/
def itemChars : List Json → List Char
  | [] => [']']
  | v :: rest => ',' :: chars v ++ itemChars rest

/-- The fields behind the first one, with the closing brace. -/
def fieldChars : List (String × Json) → List Char
  | [] => ['}']
  | (name, v) :: rest => ',' :: quote name ++ ':' :: chars v ++ fieldChars rest

end

mutual

def indented (level : Nat) : Json → List Char
  | .arr (v :: rest) =>
    '[' :: newline (level + 1) ++ indented (level + 1) v ++ indentedItems level rest
  | .obj ((name, v) :: rest) | .map ((name, v) :: rest) =>
    '{' :: newline (level + 1) ++ quote name ++ ':' :: ' ' :: indented (level + 1) v ++
      indentedFields level rest
  | v => chars v

def indentedItems (level : Nat) : List Json → List Char
  | [] => newline level ++ [']']
  | v :: rest => ',' :: newline (level + 1) ++ indented (level + 1) v ++ indentedItems level rest

def indentedFields (level : Nat) : List (String × Json) → List Char
  | [] => newline level ++ ['}']
  | (name, v) :: rest =>
    ',' :: newline (level + 1) ++ quote name ++ ':' :: ' ' :: indented (level + 1) v ++
      indentedFields level rest

end

def render (v : Json) : String :=
  String.ofList v.chars

def renderIndented (v : Json) : String :=
  String.ofList (v.indented 0)

end LoanArrears.Json
