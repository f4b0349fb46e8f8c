-- SUMMARY: Why a write is refused: for an amount out of range or for a check, never with a crash; totals that count installments pass the checks.
import LoanArrears.Proofs.Arrears.Entry
import LoanArrears.Proofs.Decimal.Bounded

/-!
# Refused writes

A position is brought to cents bucket by bucket, and its total on its own. The total is added
up only after every bucket has turned out to fit, so that sum cannot crash: a position is
refused for an amount that is out of range, and an entry for a check that it fails. The totals
of installments never fail a check, since their sums are exact.
-/

namespace LoanArrears

theorem Decimal.eq_of_toCents_eq_error {a : Decimal} {e : Error} (h : a.toCents = .error e) :
    e = .amountOutOfRange a := by
  unfold toCents at h
  split at h
  · cases h
  · cases h
    rfl

/-- A position cannot be brought to cents only because an amount is out of range. -/
theorem ArrearsPosition.exists_of_prepare_eq_error {a : ArrearsPosition} {f : Fault}
    (h : a.prepare = .error f) : ∃ amount, f = .error (.amountOutOfRange amount) := by
  unfold prepare at h
  cases hcents : Amounts.toCents a.overdue with
  | error e =>
    obtain ⟨i, hi⟩ := Buckets.mapM_eq_error hcents
    rw [hcents] at h
    cases h
    exact ⟨a.overdue.get i, by rw [Decimal.eq_of_toCents_eq_error hi]⟩
  | ok cents =>
    obtain ⟨total, htotal⟩ := Amounts.exists_total_of_toCents hcents
    have htotal' : a.total = .ok total := htotal
    rw [hcents, htotal'] at h
    simp only [liftM, monadLift, MonadLift.monadLift, bind, Except.bind] at h
    cases hsum : total.toCents with
    | ok sum =>
      rw [hsum] at h
      cases h
    | error e =>
      rw [hsum] at h
      cases h
      exact ⟨total, by rw [Decimal.eq_of_toCents_eq_error hsum]⟩

theorem ArrearsEntry.class_of_check_eq_error {entry : ArrearsEntry} {e : Error}
    (h : entry.check = .error e) : e.class = .data := by
  unfold check at h
  split at h
  · cases h
    rfl
  · cases h

/-- A write that is refused is refused with an error in the data of its loan. -/
theorem ArrearsWrite.exists_of_entryLeft_eq_error {w : ArrearsWrite} {f : Fault}
    (h : w.entryLeft = .error f) : ∃ e : Error, f = .error e ∧ e.class = .data := by
  cases w with
  | delete loan => cases h
  | upsert a =>
    rw [entryLeft] at h
    cases hprepare : a.prepare with
    | error f' =>
      obtain ⟨amount, rfl⟩ := a.exists_of_prepare_eq_error hprepare
      rw [hprepare] at h
      cases h
      exact ⟨_, rfl, rfl⟩
    | ok entry =>
      rw [hprepare] at h
      cases hcheck : entry.check with
      | ok u =>
        simp only [bind, Except.bind, hcheck, liftM, monadLift, MonadLift.monadLift] at h
        cases h
      | error e =>
        simp only [bind, Except.bind, hcheck, liftM, monadLift, MonadLift.monadLift] at h
        cases h
        exact ⟨e, rfl, ArrearsEntry.class_of_check_eq_error hcheck⟩

/-- The write of counted totals is refused only for an amount out of range. -/
theorem Totals.Counts.exists_of_entryLeft_eq_error {t : Totals} {os : List Outstanding}
    (h : t.Counts os) {loan : LoanId} {f : Fault}
    (hf : (ArrearsWrite.ofTotals loan t).entryLeft = .error f) :
    ∃ amount, f = .error (.amountOutOfRange amount) := by
  cases hsince : t.since with
  | none =>
    rw [entryLeft_of_since_eq_none hsince] at hf
    cases hf
  | some since =>
    rcases Nat.lt_or_ge (Outstanding.total os) Bound.int64 with htotal | htotal
    · obtain ⟨e, he, -⟩ := h.exists_entryLeft hsince htotal loan
      rw [he] at hf
      cases hf
    · obtain ⟨e, hprepare, -⟩ := h.prepare_eq_error htotal loan since
      rw [h.ofTotals_of_since hsince, ArrearsWrite.entryLeft, hprepare] at hf
      cases hf
      exact ArrearsPosition.exists_of_prepare_eq_error hprepare

/-- What the write of counted totals leaves is what was counted. -/
theorem Totals.Counts.leaves_of_entryLeft {t : Totals} {os : List Outstanding} (h : t.Counts os)
    {loan : LoanId} {e : Option ArrearsEntry}
    (he : (ArrearsWrite.ofTotals loan t).entryLeft = .ok e) : Outstanding.Leaves os e := by
  rcases Nat.lt_or_ge (Outstanding.total os) Bound.int64 with htotal | htotal
  · obtain ⟨e', he', hleaves⟩ := h.exists_leaves htotal loan
    rw [he'] at he
    cases he
    exact hleaves
  · cases hsince : t.since with
    | none =>
      rw [entryLeft_of_since_eq_none hsince] at he
      cases he
      have hold := h.isOldest
      rw [hsince] at hold
      exact hold
    | some since =>
      obtain ⟨f, hf, -⟩ := h.entryLeft_eq_error hsince htotal loan
      rw [hf] at he
      cases he

end LoanArrears
