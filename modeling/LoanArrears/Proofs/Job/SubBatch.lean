-- SUMMARY: Sub-batches of an ascending page have no loan in common, also where an id stands twice at a border.
import LoanArrears.Job.SubBatch
import Mathlib.Data.List.Pairwise

/-!
# Loans of sub-batches

A border of a page moves behind all ids that are equal to the one before it. So in an ascending
page the ids ascend strictly from one piece to the next.
-/

namespace LoanArrears

/-- What is left behind the ids that are equal to the last one lies above it. -/
theorem lt_of_mem_dropWhile {last id : LoanId} {rest : List LoanId}
    (h : (last :: rest).Pairwise (· ≤ ·)) (hid : id ∈ rest.dropWhile (· = last)) : last < id := by
  induction rest with
  | nil => cases hid
  | cons head rest ih =>
    by_cases heq : head = last
    · rw [List.dropWhile_cons_of_pos (by simpa using heq)] at hid
      exact ih (h.sublist ((List.sublist_cons_self head rest).cons_cons last)) hid
    · rw [List.dropWhile_cons_of_neg (by simpa using heq)] at hid
      obtain ⟨hlast, hrest⟩ := List.pairwise_cons.1 h
      have hhead : last < head :=
        Int.lt_iff_le_and_ne.2 ⟨hlast head List.mem_cons_self, Ne.symm heq⟩
      rcases List.mem_cons.1 hid with rfl | hid
      · exact hhead
      · exact Int.lt_of_lt_of_le hhead ((List.pairwise_cons.1 hrest).1 id hid)

/-- Pieces of ascending ids lie one above the other. -/
theorem pieces_ascending (size : Nat) {ids : List LoanId} (h : ids.Pairwise (· ≤ ·)) :
    (pieces size ids).Pairwise fun piece piece' => ∀ id ∈ piece, ∀ id' ∈ piece', id < id' := by
  fun_induction pieces size ids with
  | case1 => exact .nil
  | case2 id ids last rest ih =>
    have hsplit : (id :: ids.take size) ++ rest = id :: ids := by
      rw [List.cons_append, List.take_append_drop]
    have hlast : (id :: ids.take size).getLast (List.cons_ne_nil _ _) = last := by
      refine Option.some.inj ?_
      rw [← List.getLast?_eq_some_getLast, List.getLast?_cons]
    rw [← hsplit] at h
    obtain ⟨hfirst, hrest, hacross⟩ := List.pairwise_append.1 h
    have hmem : last ∈ id :: ids.take size := hlast ▸ List.getLast_mem _
    refine List.pairwise_cons.2 ⟨fun piece hpiece x hx y hy => ?_, ih (hrest.sublist
      (List.dropWhile_sublist _))⟩
    have hy : y ∈ rest.dropWhile (· = last) := by
      rw [← flatten_pieces size (rest.dropWhile (· = last))]
      exact List.mem_flatten.2 ⟨piece, hpiece, hy⟩
    have hlt : last < y := by
      refine lt_of_mem_dropWhile (List.pairwise_cons.2 ⟨?_, hrest⟩) hy
      exact hacross last hmem
    rcases List.mem_append.1 hx with hx | hx
    · exact Int.lt_of_le_of_lt (hlast ▸ hfirst.rel_getLast hx) hlt
    · have heq : x = last := of_decide_eq_true (List.all_eq_true.1 List.all_takeWhile x hx)
      exact heq ▸ hlt

namespace SubBatch

theorem map_loans_ofPage (page : List LoanId) (workers batchSize : Nat) :
    (ofPage page workers batchSize).map (·.loans) =
      pieces (pieceSize page.length workers batchSize - 1) page := by
  unfold ofPage
  apply List.ext_getElem <;> simp

/-- The sub-batches of a page cover it. -/
theorem flatMap_ofPage (page : List LoanId) (workers batchSize : Nat) :
    (ofPage page workers batchSize).flatMap (·.loans) = page := by
  rw [List.flatMap_def, map_loans_ofPage]
  exact flatten_pieces _ page

/-- The loans of a sub-batch lie below those of the later ones. -/
theorem ofPage_ascending {page : List LoanId} (h : page.Pairwise (· ≤ ·))
    (workers batchSize : Nat) :
    (ofPage page workers batchSize).Pairwise fun b b' =>
      ∀ id ∈ b.loans, ∀ id' ∈ b'.loans, id < id' := by
  have hpieces := pieces_ascending (pieceSize page.length workers batchSize - 1) h
  unfold ofPage
  rw [List.pairwise_iff_getElem] at hpieces ⊢
  intro i j hi hj hlt
  simp only [List.length_mapIdx] at hi hj
  simp only [List.getElem_mapIdx]
  exact hpieces i j hi hj hlt

end SubBatch

end LoanArrears
