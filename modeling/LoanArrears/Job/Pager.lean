-- SUMMARY: Paging through the candidate loans: a cursor on the highest id handed out, and pages in ascending order behind it.
import LoanArrears.Store.Access

/-!
# Pages of candidates

A `Pager` hands out the candidate loans page by page. Its cursor is the
highest id handed out so far, so loans that come and go behind it do not shift
later pages. A page that is short is the last one.

Whatever a fetch answers, a page has every id once, in ascending order, and no
id up to the cursor.
-/

namespace LoanArrears

structure Pager where
  today : Date
  /-- Ids asked for at a time, at least one. -/
  pageSize : Nat
  /-- The highest id handed out. -/
  cursor : LoanId
  exhausted : Bool
  /-- Pages and ids handed out. -/
  pages : Nat
  ids : Nat
deriving DecidableEq

/-- The ids behind `after` in ascending order, each once. -/
def ascendingBehind (after : LoanId) (ids : List LoanId) : List LoanId :=
  (ids.mergeSort (· ≤ ·)).eraseReps.filter (after < ·)

namespace Pager

def new (today : Date) (pageSize : Nat) : Pager where
  today := today
  pageSize := max pageSize 1
  cursor := 0
  exhausted := false
  pages := 0
  ids := 0

/-- The pager after a page was fetched. -/
def advance (p : Pager) (page : List LoanId) : Pager :=
  let p := { p with exhausted := page.length < p.pageSize }
  match page.getLast? with
  | some last =>
    { p with cursor := last, pages := p.pages + 1, ids := p.ids + page.length }
  | none => p

variable [BookAccess σ]

/-- One fetch, without regard to the cursor. -/
def fetch (p : Pager) (after : LoanId) (pageSize : Nat) : Act σ (List LoanId) :=
  ascendingBehind after <$> BookAccess.candidates after pageSize p.today

/-- The next page, if there is one, and the pager behind it. -/
def next (p : Pager) : Act σ (Option (List LoanId) × Pager) := do
  if p.exhausted then return (none, p)
  let page ← p.fetch p.cursor p.pageSize
  return (if page.isEmpty then none else some page, p.advance page)

/-- The cursor moves up with every page, so there are no more pages than
    positive ids. -/
def pageLimit : Nat := Bound.int64

/-- All pages to the end, at most `limit` of them. -/
def drainUpTo (p : Pager) : Nat → Act σ (List (List LoanId) × Pager)
  | 0 => return ([], p)
  | limit + 1 => do
    match ← p.next with
    | (none, p) => return ([], p)
    | (some page, p) =>
      let (pages, p) ← p.drainUpTo limit
      return (page :: pages, p)

def drain (p : Pager) : Act σ (List (List LoanId) × Pager) :=
  p.drainUpTo pageLimit

end Pager

end LoanArrears
