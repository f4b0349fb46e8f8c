-- SUMMARY: The order that schedules are read in: it depends on the installments only, and for four-digit years it is that of the due dates.
import LoanArrears.Book.Query
import LoanArrears.Proofs.Calendar.TextOrder
import Mathlib.Data.List.Sort
import Mathlib.Data.Prod.Lex
import Mathlib.Data.String.Basic

/-!
# The order of schedules

Schedules are sorted by the texts of due dates and then by numbers. The key of an installment in
that order is `dueKey`. Where the installments have numbers of their own, no two of them have the
same key, so whatever order they were written in they are read in the same one (`byDueText_eq`).
-/

namespace LoanArrears

section DueOrder

variable {dueDate : α → Date} {installment : α → Nat} {xs ys : List α}

/-- One installment goes before another one in the order of due dates and numbers. -/
def DueBefore (dueDate : α → Date) (installment : α → Nat) (a b : α) : Prop :=
  (dueDate a).number < (dueDate b).number ∨
    dueDate a = dueDate b ∧ installment a < installment b

/-- What an installment is sorted by. -/
def dueKey (dueDate : α → Date) (installment : α → Nat) (a : α) : String ×ₗ Nat :=
  toLex ((dueDate a).toText, installment a)

theorem byDueText_eq_mergeSort (xs : List α) :
    byDueText dueDate installment xs =
      xs.mergeSort fun a b => dueKey dueDate installment a ≤ dueKey dueDate installment b := by
  unfold byDueText
  congr 1
  funext a b
  rw [Bool.eq_iff_iff]
  simp [dueKey, Prod.Lex.toLex_le_toLex]

theorem perm_byDueText (xs : List α) : (byDueText dueDate installment xs).Perm xs :=
  List.mergeSort_perm _ _

theorem pairwise_byDueText (xs : List α) :
    (byDueText dueDate installment xs).Pairwise fun a b =>
      dueKey dueDate installment a ≤ dueKey dueDate installment b := by
  rw [byDueText_eq_mergeSort]
  refine (List.pairwise_mergeSort ?_ ?_ xs).imp of_decide_eq_true
  · intro a b c hab hbc
    exact decide_eq_true (le_trans (of_decide_eq_true hab) (of_decide_eq_true hbc))
  · intro a b
    rw [Bool.or_eq_true, decide_eq_true_iff, decide_eq_true_iff]
    exact le_total _ _

/-- Installments with numbers of their own are sorted in one way only. -/
theorem byDueText_eq (h : xs.Perm ys) (hnumbers : (xs.map installment).Nodup) :
    byDueText dueDate installment xs = byDueText dueDate installment ys := by
  refine List.Perm.eq_of_pairwise ?_ (pairwise_byDueText xs) (pairwise_byDueText ys)
    ((perm_byDueText xs).trans (h.trans (perm_byDueText ys).symm))
  intro a b ha hb hab hba
  have hkey : dueKey dueDate installment a = dueKey dueDate installment b := le_antisymm hab hba
  refine List.inj_on_of_nodup_map hnumbers ?_ ?_ (congrArg (fun k => (ofLex k).2) hkey)
  · exact (perm_byDueText xs).mem_iff.1 ha
  · exact h.mem_iff.2 ((perm_byDueText ys).mem_iff.1 hb)

/-- In the years that texts have four digits for, sorted texts are sorted dates. -/
theorem dueBefore_of_dueKey_le {a b : α} (ha : (dueDate a).HasFourDigitYear)
    (hb : (dueDate b).HasFourDigitYear) (hne : installment a ≠ installment b)
    (h : dueKey dueDate installment a ≤ dueKey dueDate installment b) :
    DueBefore dueDate installment a b := by
  rcases Prod.Lex.toLex_le_toLex.1 h with hlt | ⟨heq, hle⟩
  · exact .inl ((Date.toText_lt_iff ha hb).1 hlt)
  · have htext : (dueDate a).toText = (dueDate b).toText := heq
    have hab : ¬(dueDate a).number < (dueDate b).number := by
      rw [← Date.toText_lt_iff ha hb, htext]
      exact lt_irrefl _
    have hba : ¬(dueDate b).number < (dueDate a).number := by
      rw [← Date.toText_lt_iff hb ha, htext]
      exact lt_irrefl _
    refine .inr ⟨Date.eq_of_number (by omega), lt_of_le_of_ne hle hne⟩

theorem dueBefore_byDueText (hnumbers : (xs.map installment).Nodup)
    (hyears : ∀ x ∈ xs, (dueDate x).HasFourDigitYear) :
    (byDueText dueDate installment xs).Pairwise (DueBefore dueDate installment) := by
  have hnodup : ((byDueText dueDate installment xs).map installment).Nodup :=
    (((perm_byDueText xs).map installment).nodup_iff).2 hnumbers
  have hboth := (pairwise_byDueText xs).and (List.pairwise_map.1 hnodup)
  refine hboth.imp_of_mem fun ha hb h => ?_
  refine dueBefore_of_dueKey_le ?_ ?_ h.2 h.1
  · exact hyears _ ((perm_byDueText xs).mem_iff.1 ha)
  · exact hyears _ ((perm_byDueText xs).mem_iff.1 hb)

end DueOrder

end LoanArrears
