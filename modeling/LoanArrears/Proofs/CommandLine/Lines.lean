-- SUMMARY: The lines of a text as what it is put together from, and that reading it finds them.
import LoanArrears.CommandLine.Replay

/-!
# Lines

A text is written line by line: each line has a newline behind it, with a carriage return in front
of the newline or not, and only the last one may have none. The lines of a text are determined by
that, and `lines` finds them.
-/

namespace LoanArrears.CommandLine

variable {c : Char} {cs behind line : List Char} {ls : List (List Char)}

/-- The text consists of these lines. -/
inductive HasLines : List Char → List (List Char) → Prop
  | nil : HasLines [] []
  | last {line : List Char} : line ≠ [] → '\n' ∉ line → HasLines line [line]
  | newline {line behind : List Char} {ls : List (List Char)} :
      '\n' ∉ line → line.getLast? ≠ some '\r' → HasLines behind ls →
      HasLines (line ++ '\n' :: behind) (line :: ls)
  | carriageReturn {line behind : List Char} {ls : List (List Char)} :
      '\n' ∉ line → HasLines behind ls → HasLines (line ++ '\r' :: '\n' :: behind) (line :: ls)

/-! ## Reading lines -/

/-- A character joins the line behind it, unless it ends a line itself. -/
theorem lines_cons (hc : c ≠ '\n') (hreturn : ∀ rest, c = '\r' → cs ≠ '\n' :: rest) :
    lines (c :: cs) =
      match lines cs with
      | [] => [[c]]
      | line :: others => (c :: line) :: others := by
  cases h : lines cs <;> simp [lines, h]

/-- The first line goes up to its end. -/
theorem lines_append (hline : '\n' ∉ line)
    (hreturn : ∀ rest, line.getLast? = some '\r' → behind ≠ '\n' :: rest)
    (hbehind : lines behind = [] :: ls) : lines (line ++ behind) = line :: ls := by
  induction line with
  | nil => exact hbehind
  | cons c line ih =>
    rw [List.mem_cons, not_or] at hline
    have hlines : lines (line ++ behind) = line :: ls := by
      refine ih hline.2 fun rest hlast => hreturn rest ?_
      rw [List.getLast?_cons, hlast]
      rfl
    rw [List.cons_append, lines_cons (Ne.symm hline.1), hlines]
    rintro rest rfl
    cases line with
    | nil => exact hreturn rest rfl
    | cons d line => exact fun h => hline.2 ((List.cons.inj h).1 ▸ List.mem_cons_self)

theorem lines_of_not_mem (hne : line ≠ []) (hline : '\n' ∉ line) : lines line = [line] := by
  induction line with
  | nil => contradiction
  | cons c line ih =>
    rw [List.mem_cons, not_or] at hline
    rw [lines_cons (Ne.symm hline.1)]
    · cases line with
      | nil => rfl
      | cons d line => rw [ih (List.cons_ne_nil d line) hline.2]
    · rintro rest - rfl
      exact hline.2 List.mem_cons_self

/-- In front of a text that consists of lines, such a character joins the first one. -/
theorem HasLines.cons (h : HasLines cs (line :: ls)) (hc : c ≠ '\n')
    (hreturn : ∀ rest, c = '\r' → cs ≠ '\n' :: rest) :
    HasLines (c :: cs) ((c :: line) :: ls) := by
  have hmem {line : List Char} (hline : '\n' ∉ line) : '\n' ∉ c :: line := by
    rw [List.mem_cons, not_or]
    exact ⟨Ne.symm hc, hline⟩
  cases h with
  | last hne hline => exact .last (List.cons_ne_nil c _) (hmem hline)
  | newline hline hlast hbehind =>
    refine .newline (hmem hline) ?_ hbehind
    cases line with
    | nil => exact fun h => hreturn _ (Option.some.inj h) rfl
    | cons d line => rwa [List.getLast?_cons_cons]
  | carriageReturn hline hbehind => exact .carriageReturn (hmem hline) hbehind

/-- The lines that a text consists of are those that are read from it. -/
theorem hasLines_iff : HasLines cs ls ↔ lines cs = ls := by
  constructor
  · intro h
    induction h with
    | nil => rfl
    | last hne hline => exact lines_of_not_mem hne hline
    | newline hline hlast _ ih =>
      exact lines_append hline (fun _ h => absurd h hlast) (by rw [lines, ih])
    | carriageReturn hline _ ih => exact lines_append hline nofun (by rw [lines, ih])
  · rintro rfl
    fun_induction lines cs with
    | case1 => exact .nil
    | case2 rest ih => exact .newline List.not_mem_nil nofun ih
    | case3 rest ih => exact .carriageReturn List.not_mem_nil ih
    | case4 c rest hc hreturn hrest ih =>
      rw [hrest] at ih
      cases ih
      exact .last (List.cons_ne_nil c []) fun h => hc (List.mem_singleton.1 h).symm
    | case5 c rest hc hreturn line others hrest ih =>
      rw [hrest] at ih
      exact ih.cons hc hreturn

end LoanArrears.CommandLine
