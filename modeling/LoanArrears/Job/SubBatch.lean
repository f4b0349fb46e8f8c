-- SUMMARY: Cutting a page of loan ids into contiguous sub-batches, one for each worker at most.
import LoanArrears.Error

/-!
# Sub-batches

A page is cut into pieces of the batch size, or of an even share of the page if
that is more. A border that would cut through a run of equal ids moves behind
the run. So the sub-batches cover the page in order, and there are no more of
them than workers.
-/

namespace LoanArrears

structure SubBatch where
  index : Nat
  loans : List LoanId
deriving DecidableEq

def SubBatch.first? (b : SubBatch) : Option LoanId :=
  b.loans.head?

def SubBatch.last? (b : SubBatch) : Option LoanId :=
  b.loans.getLast?

/-- Pieces of `size + 1` ids, each longer by the ids equal to its last one. -/
def pieces (size : Nat) : List LoanId → List (List LoanId)
  | [] => []
  | id :: ids =>
    let last := (ids.take size).getLast?.getD id
    let rest := ids.drop size
    (id :: ids.take size ++ rest.takeWhile (· = last)) ::
      pieces size (rest.dropWhile (· = last))
termination_by ids => ids.length
decreasing_by
  have hdrop : (ids.drop size).length ≤ ids.length := by simp
  exact Nat.lt_succ_of_le (Nat.le_trans (List.dropWhile_sublist _).length_le hdrop)

theorem flatten_pieces (size : Nat) (ids : List LoanId) : (pieces size ids).flatten = ids := by
  fun_induction pieces size ids with
  | case1 => rfl
  | case2 id ids last rest ih =>
    simp only [List.flatten_cons, ih, List.cons_append, List.append_assoc,
      List.takeWhile_append_dropWhile]
    simp [rest]

theorem ne_nil_of_mem_pieces {size : Nat} {ids piece : List LoanId} (h : piece ∈ pieces size ids) :
    piece ≠ [] := by
  fun_induction pieces size ids with
  | case1 => simp at h
  | case2 id ids last rest ih =>
    rcases List.mem_cons.1 h with rfl | h
    · simp
    · exact ih h

/-- Ids in a sub-batch: the batch size, or the even share of a worker. -/
def pieceSize (length workers batchSize : Nat) : Nat :=
  let workers := max workers 1
  max (max batchSize 1) ((length + workers - 1) / workers)

def SubBatch.ofPage (page : List LoanId) (workers batchSize : Nat) : List SubBatch :=
  (pieces (pieceSize page.length workers batchSize - 1) page).mapIdx fun index loans =>
    ⟨index, loans⟩

end LoanArrears
