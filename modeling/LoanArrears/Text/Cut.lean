-- SUMMARY: Cutting texts at a character: at the first one, and at each of them.

/-!
# Cutting texts

`cutAt` cuts a text in two at the first occurrence of a character, `piecesAt` in
pieces at all of them. The character itself is in none of the parts.
-/

namespace LoanArrears.Text

/-- What is before the first `c`, and what is behind it. -/
def cutAt (c : Char) (cs : List Char) : List Char × List Char :=
  (cs.takeWhile (· != c), (cs.dropWhile (· != c)).drop 1)

/-- The pieces between one `c` and the next. -/
def piecesAt (c : Char) : List Char → List (List Char)
  | [] => [[]]
  | d :: rest =>
    if d = c then [] :: piecesAt c rest
    else match piecesAt c rest with
      | [] => [[d]]
      | piece :: others => (d :: piece) :: others

end LoanArrears.Text
