-- SUMMARY: How the write of a loan can fail, whatever the book holds: with bad data of that loan, or with a crash.
import LoanArrears.Proofs.Arrears.Refusing
import LoanArrears.Proofs.Book.Planned

/-!
# How writes fail

Neither computing the write of a loan nor checking what it leaves ends with an error that
another attempt could mend: an error is one in the data of the loan (`Fault.IsFinal`). This
holds of every book, also of one whose loans crash.
-/

namespace LoanArrears

/-- If the computation fails, its error has the property. -/
def FailsOnly (p : ε → Prop) (x : Except ε α) : Prop :=
  ∀ e, x = .error e → p e

namespace FailsOnly

variable {p : ε → Prop}

theorem pure (a : α) : FailsOnly p (Pure.pure a : Except ε α) := by
  intro e h
  cases h

theorem bind {x : Except ε α} {f : α → Except ε β} (hx : FailsOnly p x)
    (hf : ∀ a, FailsOnly p (f a)) : FailsOnly p (x >>= f) := by
  intro e h
  cases x with
  | error e' =>
    cases h
    exact hx e rfl
  | ok a => exact hf a e h

theorem mapM {f : α → Except ε β} (h : ∀ a, FailsOnly p (f a)) (l : List α) :
    FailsOnly p (l.mapM f) := by
  induction l with
  | nil => exact .pure []
  | cons a l ih =>
    rw [List.mapM_cons]
    exact .bind (h a) fun b => .bind ih fun bs => .pure (b :: bs)

end FailsOnly

/-- Bad data of one loan or a crash: another attempt would end the same way. -/
def Fault.IsFinal : Fault → Prop
  | .error e => e.class = .data
  | .crash _ => True

namespace FailsOnly

theorem lift_error {x : Except Error α} (h : FailsOnly (·.class = .data) x) :
    FailsOnly Fault.IsFinal (liftM x : Except Fault α) := by
  intro f hf
  cases x with
  | error e =>
    cases hf
    exact h e rfl
  | ok a => cases hf

theorem lift_crash (x : Except Crash α) :
    FailsOnly Fault.IsFinal (liftM x : Except Fault α) := by
  intro f hf
  cases x with
  | error c =>
    cases hf
    exact trivial
  | ok a => cases hf

end FailsOnly

/-! ## Computing writes -/

namespace Book

theorem failsOnly_terms (b : Book) (id : LoanId) : FailsOnly (·.class = .data) (b.terms id) := by
  intro e h
  unfold terms at h
  split at h
  · split at h
    · cases h
    · cases h
      rfl
  · cases h
    rfl

theorem failsOnly_consumption (b : Book) (id : LoanId) :
    FailsOnly (·.class = .data) (b.consumption id) := by
  unfold consumption
  split
  · exact .bind (fun e h => Buckets.class_of_readStored_eq_error h) fun consumed => .pure _
  · intro e h
    cases h
    rfl

theorem failsOnly_liveInstallments (b : Book) (id : LoanId) :
    FailsOnly (·.class = .data) (b.liveInstallments id) := by
  unfold liveInstallments
  split
  · refine .mapM (fun entry => ?_) _
    exact .bind (fun e h => Buckets.class_of_readStored_eq_error h) fun consumed => .pure _
  · exact .pure []

theorem failsOnly_plannedTotals? (b : Book) (terms : AgingTerms) (today : Date) :
    FailsOnly Fault.IsFinal (b.plannedTotals? terms today) := by
  unfold plannedTotals?
  split
  · exact .pure none
  dsimp only
  split
  · exact .pure none
  refine .bind (.lift_error fun e h => class_of_validateSchedule_eq_error h) fun _ => ?_
  refine .bind (.lift_error (b.failsOnly_consumption terms.loan)) fun lifetime => ?_
  refine .bind (.lift_error fun e h => Consumption.class_of_validate_eq_error h) fun _ => ?_
  refine .bind (.lift_crash _) fun allocated => ?_
  refine .bind (.lift_crash _) fun cutoff => ?_
  exact .bind (.lift_crash _) fun totals => .pure (some totals)

theorem failsOnly_liveTotals (b : Book) (terms : AgingTerms) (today : Date) :
    FailsOnly Fault.IsFinal (b.liveTotals terms today) := by
  unfold liveTotals
  refine .bind (.lift_error (b.failsOnly_liveInstallments terms.loan)) fun rows => ?_
  exact .bind (.lift_crash _) fun cutoff => .lift_crash _

theorem failsOnly_ofReplayed (b : Book) (terms : AgingTerms) (today : Date)
    (replayed : Option Totals) : FailsOnly Fault.IsFinal (do
      let totals ← match replayed with
        | some totals => Pure.pure totals
        | none => b.liveTotals terms today
      return ArrearsWrite.ofTotals terms.loan totals) := by
  cases replayed with
  | some totals => exact .pure _
  | none => exact .bind (b.failsOnly_liveTotals terms today) fun totals => .pure _

theorem failsOnly_activeWriteOf (b : Book) (terms : AgingTerms) (today : Date)
    (mode : AgingMode) : FailsOnly Fault.IsFinal (b.activeWriteOf terms today mode) := by
  unfold activeWriteOf
  split
  · exact .bind (b.failsOnly_plannedTotals? terms today) (b.failsOnly_ofReplayed terms today)
  · exact .bind (.pure none) (b.failsOnly_ofReplayed terms today)

/-- The write of a loan cannot be computed only for its bad data, or for a crash. -/
theorem failsOnly_writeOf (b : Book) (id : LoanId) (today : Date) (mode : AgingMode) :
    FailsOnly Fault.IsFinal (b.writeOf id today mode) := by
  unfold writeOf
  refine .bind (.lift_error (b.failsOnly_terms id)) fun terms => ?_
  split
  · exact .pure _
  · exact b.failsOnly_activeWriteOf terms today mode

end Book

/-! ## Checking writes -/

/-- A write is refused only for the bad data of its loan. -/
theorem ArrearsWrite.failsOnly_entryLeft (w : ArrearsWrite) :
    FailsOnly Fault.IsFinal w.entryLeft := by
  intro f h
  obtain ⟨e, rfl, hdata⟩ := w.exists_of_entryLeft_eq_error h
  exact hdata

end LoanArrears
