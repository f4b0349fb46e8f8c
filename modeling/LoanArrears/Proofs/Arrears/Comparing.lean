-- SUMMARY: Comparing what is outstanding at two times: a loan with less of it has a smaller row or none, and a later cutoff only adds to it.
import LoanArrears.Proofs.Arrears.Entry
import LoanArrears.Proofs.Schedule.ClosedForm
import Mathlib.Data.List.Forall2

/-!
# Comparing arrears

A list of outstanding installments is below another one if it comes from it by leaving installments
out and by lowering amounts. Totals that count the lists compare in the same way, and so do the
writes of the totals: the row of the smaller list is `ShrinksTo` what the larger one had, and
where the larger list has only later dates to add, the row `GrowsTo` its own.
-/

namespace LoanArrears

/-! ## Rows -/

namespace ArrearsWrite

/-- A row stays, under the same loan and date, and no amount of it gets smaller. -/
def GrowsTo (w w' : ArrearsWrite) : Prop :=
  ∀ a, w = .upsert a → ∃ a', w' = .upsert a' ∧ a'.loan = a.loan ∧ a'.since = a.since ∧
    ∀ i, (a.overdue.get i).le (a'.overdue.get i)

/-- A row is only there if there was one, under the same loan, since a date that is not earlier
    and with no larger amount. -/
def ShrinksTo (w w' : ArrearsWrite) : Prop :=
  ∀ a', w' = .upsert a' → ∃ a, w = .upsert a ∧ a'.loan = a.loan ∧
    a.since.number ≤ a'.since.number ∧ ∀ i, (a'.overdue.get i).le (a.overdue.get i)

theorem growsTo_delete (loan : LoanId) (w : ArrearsWrite) : (delete loan).GrowsTo w := by
  intro a ha
  cases ha

theorem shrinksTo_delete (w : ArrearsWrite) (loan : LoanId) : w.ShrinksTo (.delete loan) := by
  intro a ha
  cases ha

end ArrearsWrite

/-! ## Outstanding installments -/

namespace Outstanding

/-- The same due date, and no larger amount. -/
structure AtMost (o' o : Outstanding) : Prop where
  dueDate : o'.dueDate = o.dueDate
  cents_le : ∀ i, o'.cents.get i ≤ o.cents.get i

instance : Std.Refl AtMost where
  refl _ := ⟨rfl, fun _ => Nat.le_refl _⟩

/-- Installments are left out, and no larger amount is outstanding on the others. -/
abbrev Below (os' os : List Outstanding) : Prop :=
  List.SublistForall₂ AtMost os' os

/-- The installments due before the cutoff. -/
def dueBefore (cutoff : Date) (os : List Outstanding) : List Outstanding :=
  os.filter (·.dueDate.before cutoff)

theorem mem_principalDates_iff {os : List Outstanding} {d : Date} :
    d ∈ principalDates os ↔ ∃ o ∈ os, 0 < o.cents.get .principal ∧ o.dueDate = d := by
  simp [principalDates, Buckets.get, and_assoc]

theorem principalDates_dueBefore (cutoff : Date) (os : List Outstanding) :
    principalDates (dueBefore cutoff os) = (principalDates os).filter (·.before cutoff) := by
  simp only [principalDates, dueBefore, List.filter_map, List.filter_filter]
  exact congrArg (List.map _) (List.filter_congr fun o _ => Bool.and_comm ..)

variable {os os' : List Outstanding}

theorem Below.sum_le (h : Below os' os) (i : Bucket) : sum os' i ≤ sum os i := by
  induction h with
  | nil => simp
  | cons hle _ ih =>
    simp only [sum_cons]
    exact Nat.add_le_add (hle.cents_le i) ih
  | cons_right _ ih =>
    simp only [sum_cons]
    exact Nat.le_trans ih (Nat.le_add_left ..)

theorem Below.exists_of_mem (h : Below os' os) {o' : Outstanding} (ho' : o' ∈ os') :
    ∃ o ∈ os, o'.AtMost o := by
  induction h with
  | nil => cases ho'
  | cons hle _ ih =>
    rcases List.mem_cons.1 ho' with rfl | ho'
    · exact ⟨_, List.mem_cons_self, hle⟩
    · obtain ⟨o, ho, hle⟩ := ih ho'
      exact ⟨o, List.mem_cons_of_mem _ ho, hle⟩
  | cons_right _ ih =>
    obtain ⟨o, ho, hle⟩ := ih ho'
    exact ⟨o, List.mem_cons_of_mem _ ho, hle⟩

/-- Principal that is outstanding was outstanding before. -/
theorem Below.principalDates_subset (h : Below os' os) : principalDates os' ⊆ principalDates os := by
  intro d hd
  simp only [mem_principalDates_iff] at hd ⊢
  obtain ⟨o', ho', hpos, rfl⟩ := hd
  obtain ⟨o, ho, hle⟩ := h.exists_of_mem ho'
  exact ⟨o, ho, Nat.lt_of_lt_of_le hpos (hle.cents_le .principal), hle.dueDate.symm⟩

/-- What is due before a cutoff compares like the whole lists: dates are the same. -/
theorem Below.dueBefore (h : Below os' os) (cutoff : Date) :
    Below (dueBefore cutoff os') (dueBefore cutoff os) := by
  induction h with
  | nil => exact .nil
  | @cons o' o os' os hle _ ih =>
    by_cases hdue : o.dueDate.before cutoff
    · have hdue' : o'.dueDate.before cutoff := hle.dueDate ▸ hdue
      simpa [Outstanding.dueBefore, hdue, hdue'] using .cons hle ih
    · have hdue' : ¬ o'.dueDate.before cutoff := hle.dueDate ▸ hdue
      simpa [Outstanding.dueBefore, hdue, hdue'] using ih
  | @cons_right o os' os _ ih =>
    by_cases hdue : o.dueDate.before cutoff
    · simpa [Outstanding.dueBefore, hdue] using .cons_right ih
    · simpa [Outstanding.dueBefore, hdue] using ih

/-! ### A later cutoff -/

variable {cutoff cutoff' : Date}

/-- A later cutoff leaves nothing out. -/
theorem dueBefore_below (hle : cutoff.number ≤ cutoff'.number) (os : List Outstanding) :
    Below (dueBefore cutoff os) (dueBefore cutoff' os) := by
  refine List.Sublist.sublistForall₂ (List.monotone_filter_right os ?_)
  intro o hdue
  exact decide_eq_true (Int.lt_of_lt_of_le (of_decide_eq_true hdue) hle)

/-- What a later cutoff adds is due later than what was overdue already. -/
theorem isOldest_dueBefore_of_le (hle : cutoff.number ≤ cutoff'.number) {since : Date}
    (h : Date.IsOldest (principalDates (dueBefore cutoff os)) (some since)) :
    Date.IsOldest (principalDates (dueBefore cutoff' os)) (some since) := by
  refine h.of_cover (dueBefore_below hle os).principalDates_subset fun d hd => ?_
  simp only [principalDates_dueBefore, List.mem_filter] at h hd ⊢
  by_cases hdue : d.before cutoff
  · exact ⟨d, ⟨hd.1, hdue⟩, Int.le_refl _⟩
  · have hlate : cutoff.number ≤ d.number := by simpa [Date.before] using hdue
    have hsince : since.before cutoff := (List.mem_filter.1 h.1).2
    exact ⟨since, List.mem_filter.1 h.1,
      Int.le_of_lt (Int.lt_of_lt_of_le (of_decide_eq_true hsince) hlate)⟩

end Outstanding

/-! ## Writes of totals -/

namespace Totals.Counts

variable {t t' : Totals} {os os' : List Outstanding}

theorem le_of_sum_le (h : t.Counts os) (h' : t'.Counts os') {i : Bucket}
    (hle : Outstanding.sum os i ≤ Outstanding.sum os' i) :
    (t.overdue.get i).le (t'.overdue.get i) :=
  ((h.isCents i).le_iff (h'.isCents i)).2 (Int.ofNat_le.2 hle)

/-- What is due before a cutoff grows to what is due before a later one. -/
theorem growsTo {cutoff cutoff' : Date} (hle : cutoff.number ≤ cutoff'.number)
    (h : t.Counts (Outstanding.dueBefore cutoff os))
    (h' : t'.Counts (Outstanding.dueBefore cutoff' os)) (loan : LoanId) :
    (ArrearsWrite.ofTotals loan t).GrowsTo (.ofTotals loan t') := by
  intro a ha
  obtain ⟨since, hsince, rfl⟩ := h.exists_since ha.symm
  have hold := h.isOldest
  rw [hsince] at hold
  have hsince' : t'.since = some since :=
    h'.isOldest.unique (Outstanding.isOldest_dueBefore_of_le hle hold) fun d => Iff.rfl
  refine ⟨_, h'.ofTotals_of_since hsince' loan, rfl, rfl, fun i => ?_⟩
  exact h.le_of_sum_le h' ((Outstanding.dueBefore_below hle os).sum_le i)

/-- With less outstanding, the row is gone or smaller. -/
theorem shrinksTo (h : t.Counts os) (h' : t'.Counts os') (hbelow : Outstanding.Below os' os)
    (loan : LoanId) : (ArrearsWrite.ofTotals loan t).ShrinksTo (.ofTotals loan t') := by
  intro a' ha'
  obtain ⟨since', hsince', rfl⟩ := h'.exists_since ha'.symm
  have hold' := h'.isOldest
  rw [hsince'] at hold'
  have hmem : since' ∈ Outstanding.principalDates os := hbelow.principalDates_subset hold'.1
  have hold := h.isOldest
  cases hsince : t.since with
  | none =>
    rw [hsince] at hold
    exact absurd hold (List.ne_nil_of_mem hmem)
  | some since =>
    rw [hsince] at hold
    refine ⟨_, h.ofTotals_of_since hsince loan, rfl, hold.2 since' hmem, fun i => ?_⟩
    exact h'.le_of_sum_le h (hbelow.sum_le i)

end Totals.Counts

end LoanArrears
