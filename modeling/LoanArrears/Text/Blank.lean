-- SUMMARY: The characters that count as white space in texts, and trimming by them.

/-!
# Blank characters

A character is blank when Unicode gives it the property `White_Space`. Dates
may be surrounded by blanks, and a line of blanks holds no event.
-/

namespace LoanArrears.Text

/-- The ranges of the property `White_Space`, both ends included. -/
def blankRanges : List (Nat × Nat) :=
  [(0x9, 0xD), (0x20, 0x20), (0x85, 0x85), (0xA0, 0xA0), (0x1680, 0x1680), (0x2000, 0x200A),
   (0x2028, 0x2029), (0x202F, 0x202F), (0x205F, 0x205F), (0x3000, 0x3000)]

def isBlank (c : Char) : Bool :=
  blankRanges.any fun (lo, hi) => lo ≤ c.toNat && c.toNat ≤ hi

/-- Drop the blanks in front. -/
def trimFront (cs : List Char) : List Char :=
  cs.dropWhile isBlank

theorem trimFront_of_not_blank {c : Char} {cs : List Char} (h : isBlank c = false) :
    trimFront (c :: cs) = c :: cs := by
  simp [trimFront, h]

end LoanArrears.Text
