-- SUMMARY: In every book that is built, the installments of a live schedule have numbers of their own, so what a loan owes adds up without a crash.
import LoanArrears.Proofs.Book.Live
import LoanArrears.Proofs.Book.Writes

/-!
# Numbered schedules

An installment is inserted under a number that its loan does not have yet, and nothing changes
the number later on. So a live schedule has at most as many installments as there are numbers
of 32 bits, and the sum of what they leave unpaid stays in the range of decimals, whatever the
amounts are.
-/

namespace LoanArrears

namespace Loan

/-- The numbers of the installments on the live schedule. -/
def numbers (l : Loan) : List Nat :=
  l.schedule.map (·.installment)

/-- Installments of the live schedule have numbers of their own, and those are in range. -/
structure HasNumberedSchedule (l : Loan) : Prop where
  distinct : l.numbers.Nodup
  lt : ∀ n ∈ l.numbers, n < Bound.nat32

variable {l l' : Loan}

theorem HasNumberedSchedule.of_numbers_eq (h : l.HasNumberedSchedule)
    (hsame : l'.numbers = l.numbers) : l'.HasNumberedSchedule where
  distinct := hsame ▸ h.distinct
  lt := hsame ▸ h.lt

theorem hasNumberedSchedule_of_nil (h : l.schedule = []) : l.HasNumberedSchedule where
  distinct := by simp [numbers, h]
  lt := by simp [numbers, h]

/-- An installment under a number that is not there yet can be added. -/
theorem HasNumberedSchedule.add (h : l.HasNumberedSchedule) {e : LiveEntry}
    (hnew : ∀ e' ∈ l.schedule, e'.installment ≠ e.installment) (hlt : e.installment < Bound.nat32) :
    Loan.HasNumberedSchedule { l with schedule := l.schedule ++ [e] } where
  distinct := by
    have hdisjoint : ∀ n ∈ l.numbers, ∀ n' ∈ [e.installment], n ≠ n' := by
      intro n hn n' hn'
      obtain ⟨e', he', rfl⟩ := List.mem_map.1 hn
      rw [List.mem_singleton.1 hn']
      exact hnew e' he'
    rw [numbers, List.map_append]
    exact List.nodup_append.2 ⟨h.distinct, List.nodup_singleton _, hdisjoint⟩
  lt n hn := by
    rw [numbers, List.map_append] at hn
    rcases List.mem_append.1 hn with hn | hn
    · exact h.lt n hn
    · rw [List.mem_singleton.1 hn]
      exact hlt

theorem numbers_repay (l : Loan) (installment : Nat) (amount : Buckets Cents) :
    (l.repay installment amount).numbers = l.numbers := by
  unfold numbers repay
  rw [List.map_map]
  refine List.map_congr_left fun e _ => ?_
  rw [Function.comp_apply]
  split <;> rfl

theorem HasNumberedSchedule.length_schedule_le (h : l.HasNumberedSchedule) :
    l.schedule.length ≤ Bound.nat32 := by
  have hlength := length_le_of_nodup_of_lt h.distinct h.lt
  rwa [numbers, List.length_map] at hlength

end Loan

/-! ## Books -/

namespace Book

/-- Every loan of the book has a numbered live schedule. -/
def HasNumberedSchedules (b : Book) : Prop :=
  ∀ id l, b.loans.find? id = some l → l.HasNumberedSchedule

theorem HasNumberedSchedules.put {b : Book} (h : b.HasNumberedSchedules) {l : Loan}
    (hl : l.HasNumberedSchedule) (id : LoanId) :
    Book.HasNumberedSchedules { b with loans := b.loans.put id l } := by
  intro k l' hl'
  rw [Table.find?_put] at hl'
  split at hl'
  · cases hl'
    exact hl
  · exact h k l' hl'

/-- A change of a loan that keeps the numbers of its installments. -/
theorem HasNumberedSchedules.update {b : Book} (h : b.HasNumberedSchedules) {id : LoanId}
    {l l' : Loan} (hl : b.loans.find? id = some l) (hsame : l'.numbers = l.numbers) :
    Book.HasNumberedSchedules { b with loans := b.loans.put id l' } :=
  h.put ((h id l hl).of_numbers_eq hsame) id

end Book

namespace LoanWrite

theorem schedule_of_prepare {r : LoanRow} {l : Loan} (h : r.prepare = .ok l) : l.schedule = [] := by
  obtain ⟨repaid, -, h⟩ := exists_of_bind_eq_ok h
  obtain ⟨waived, -, h⟩ := exists_of_bind_eq_ok h
  obtain ⟨writtenOff, -, h⟩ := exists_of_bind_eq_ok h
  cases h
  rfl

/-- Every write keeps the live schedules numbered. -/
theorem hasNumberedSchedules_of_apply {w : LoanWrite} {b b' : Book} (hw : w.InRange)
    (h : w.apply b = .ok b') (hb : b.HasNumberedSchedules) : b'.HasNumberedSchedules := by
  cases w with
  | insertProduct r =>
    simp only [apply, Book.addProduct] at h
    split at h
    · cases h
    · cases h
      exact hb
  | insertLoan r =>
    obtain ⟨l, hl, h⟩ := exists_of_bind_eq_ok h
    unfold Book.addLoan at h
    split at h
    · cases h
    split at h
    · cases h
    · cases h
      exact hb.put (Loan.hasNumberedSchedule_of_nil (schedule_of_prepare hl)) r.id
  | insertSchedule r =>
    obtain ⟨e, he, h⟩ := exists_of_bind_eq_ok h
    unfold Book.addLive at h
    split at h
    · cases h
    · next l hl =>
      split at h
      · cases h
      · next hnew =>
        cases h
        refine hb.put ((hb r.loan l hl).add (by simpa using hnew) ?_) r.loan
        rw [(r.becomes_of_prepare he).installment]
        exact hw.2
  | insertHistory r =>
    obtain ⟨e, he, h⟩ := exists_of_bind_eq_ok h
    unfold Book.addHistory at h
    split at h
    · cases h
    · next l hl =>
      dsimp only at h
      split at h
      · cases h
      · cases h
        exact hb.update hl rfl
  | repay loan installment amount =>
    obtain ⟨cents, -, h⟩ := exists_of_bind_eq_ok h
    obtain ⟨l, hl, rfl⟩ := Book.exists_of_repay h
    exact hb.update hl (l.numbers_repay installment cents)
  | setStatus loan status =>
    simp only [apply, Book.setStatus] at h
    split at h
    · next l hl =>
      cases h
      exact hb.update hl rfl
    · cases h
  | setStatusCode loan code =>
    cases h
    unfold Book.setStatusCode
    split
    · next l hl => exact hb.update hl rfl
    · exact hb

end LoanWrite

theorem Book.IsBuilt.hasNumberedSchedules {b : Book} (h : b.IsBuilt) : b.HasNumberedSchedules :=
  h.of_step (fun id l hl => by cases hl) fun _ _ _ hw happly hb =>
    LoanWrite.hasNumberedSchedules_of_apply hw happly hb

/-! ## Sums -/

/-- An installment leaves at most the largest amount less the smallest one. -/
theorem LiveEntry.owed_le {e : LiveEntry} {i : Bucket} (h : (e.consumed.get i).isExact) :
    e.owed.cents.get i ≤ Bound.nat64 - 1 := by
  obtain ⟨c, hc⟩ := Stored.exists_of_isExact h
  have hdue := (e.due.get i).lt_hi
  have hconsumed := c.lo_le
  rw [owed, Buckets.get_tabulate, hc]
  show ((e.due.get i).val - c.val).toNat ≤ _
  unfold Bound.nat64
  omega

/-- What is owed on a numbered schedule stays in the range of decimals. -/
theorem Loan.HasNumberedSchedule.sum_overdueLive_lt {l : Loan} (h : l.HasNumberedSchedule)
    (hconsumed : ∀ e ∈ l.schedule, ∀ i, (e.consumed.get i).isExact) (today : Date) (grace : Nat)
    (i : Bucket) : Outstanding.sum (l.overdueLive today grace) i < Decimal.coeffLimit := by
  have hle : Outstanding.sum (l.overdueLive today grace) i ≤
      (l.overdueLive today grace).length * (Bound.nat64 - 1) := by
    apply Outstanding.sum_le_of_forall_le
    intro o ho
    obtain ⟨e, he, rfl⟩ := List.mem_map.1 ho
    exact LiveEntry.owed_le (hconsumed e (List.mem_of_mem_filter he) i)
  have hcount : (l.overdueLive today grace).length ≤ Bound.nat32 := by
    rw [overdueLive, List.length_map]
    exact Nat.le_trans (List.length_filter_le ..) h.length_schedule_le
  unfold Bound.nat32 at hcount
  unfold Bound.nat64 at hle
  unfold Decimal.coeffLimit Bound.nat96
  omega

end LoanArrears
