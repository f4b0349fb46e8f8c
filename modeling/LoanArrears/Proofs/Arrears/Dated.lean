-- SUMMARY: Totals have a date exactly while principal is overdue, whatever the signs and scales of the amounts that were added up.
import LoanArrears.Arrears.Write
import LoanArrears.Proofs.Act
import LoanArrears.Proofs.Arrears.Outstanding
import LoanArrears.Proofs.Decimal.Signs

/-!
# The date of totals

`Totals.Counts` speaks about amounts of cents. Here amounts are any decimals, and sums may be
rounded. What an installment leaves outstanding is never negative, and it is positive where the
due is larger than what was consumed, so the totals stay without negative buckets and get principal
and a date at the same installment. The date is the oldest one with principal outstanding
(`Totals.IsDated`).
-/

namespace LoanArrears

/-! ## Installments with principal outstanding -/

/-- The due dates of the installments that count at the cutoff and have principal outstanding. -/
def LiveInstallment.overdueDates (rows : List LiveInstallment) (cutoff : Date) : List Date :=
  ((rows.filter fun r => r.dueDate.before cutoff && !r.completed).filter
    fun r => r.consumed.principal.lt r.due.principal).map (·.dueDate)

/-- The due dates of the covered installments that count at the cutoff and have principal
    outstanding. -/
def Coverage.overdueDates (allocated : List Coverage) (cutoff : Date) : List Date :=
  ((allocated.filter fun a => a.dueDate.before cutoff && !a.complete).filter
    fun a => a.paid.principal.lt a.due.principal).map (·.dueDate)

namespace Amounts

/-- No bucket is below zero, whether principal is outstanding or not. -/
structure IsLeft (outstanding : Amounts) (principal : Bool) : Prop where
  notNegative : ∀ i, (outstanding.get i).isNegative = false
  isPositive : outstanding.principal.isPositive = principal

/-- A difference with a floor of zero has principal where the first amount is the larger one. -/
theorem isLeft_of_monus {due consumed outstanding : Amounts}
    (h : monus due consumed = .ok outstanding) :
    outstanding.IsLeft (consumed.principal.lt due.principal) := by
  have hmonus (i : Bucket) : (due.get i).monus (consumed.get i) = .ok (outstanding.get i) :=
    Buckets.zipWithM_eq_ok_iff.1 h i
  exact ⟨fun i => (Decimal.isPositive_of_monus (hmonus i)).1,
    Bool.eq_iff_iff.2 (Decimal.isPositive_of_monus (hmonus .principal)).2⟩

end Amounts

/-! ## Totals -/

namespace Totals

/-- No bucket is negative, there is a date exactly if there is principal, and it is the oldest of
    the dates. -/
structure IsDated (t : Totals) (dates : List Date) : Prop where
  notNegative : ∀ i, (t.overdue.get i).isNegative = false
  isPositive_iff : t.overdue.principal.isPositive ↔ t.since.isSome
  isOldest : Date.IsOldest dates t.since

theorem isDated_zero : zero.IsDated [] where
  notNegative i := by cases i <;> rfl
  isPositive_iff := by decide
  isOldest := rfl

/-- One installment adds its date if it has principal outstanding. -/
theorem IsDated.addOutstanding {t t' : Totals} {dates : List Date} (h : t.IsDated dates)
    {due : Date} {outstanding : Amounts} {principal : Bool} (hleft : outstanding.IsLeft principal)
    (hadd : t.addOutstanding due outstanding = .ok t') :
    t'.IsDated (dates ++ if principal then [due] else []) := by
  obtain ⟨overdue, hoverdue, hadd⟩ := exists_of_bind_eq_ok hadd
  cases hadd
  have hsum (i : Bucket) : (overdue.get i).isNegative = false ∧
      ((overdue.get i).isPositive ↔
        (t.overdue.get i).isPositive ∨ (outstanding.get i).isPositive) :=
    Decimal.isPositive_of_add (h.notNegative i) (hleft.notNegative i)
      (Buckets.zipWithM_eq_ok_iff.1 hoverdue i)
  have hprincipal : overdue.principal.isPositive ↔
      t.overdue.principal.isPositive ∨ outstanding.principal.isPositive :=
    (hsum .principal).2
  refine ⟨fun i => (hsum i).1, ?_, ?_⟩
  · rw [hprincipal, h.isPositive_iff]
    cases outstanding.principal.isPositive <;> simp
  · dsimp only
    rw [hleft.isPositive]
    cases principal with
    | true => exact h.isOldest.push due
    | false =>
      simpa using h.isOldest

/-- Adding up installments adds the dates of those with principal outstanding. -/
theorem IsDated.foldlM {items : List α} {dueDate : α → Date} {amounts : α → Except Crash Amounts}
    {principal : α → Bool}
    (hleft : ∀ a ∈ items, ∀ o, amounts a = .ok o → o.IsLeft (principal a))
    {t t' : Totals} {dates : List Date} (h : t.IsDated dates)
    (hfold : items.foldlM (fun t a => do t.addOutstanding (dueDate a) (← amounts a)) t = .ok t') :
    t'.IsDated (dates ++ (items.filter principal).map dueDate) := by
  induction items generalizing t dates with
  | nil =>
    cases hfold
    simpa using h
  | cons a items ih =>
    rw [List.foldlM_cons] at hfold
    obtain ⟨t₁, hstep, hfold⟩ := exists_of_bind_eq_ok hfold
    obtain ⟨outstanding, hamounts, hadd⟩ := exists_of_bind_eq_ok hstep
    have hnext := h.addOutstanding (hleft a List.mem_cons_self outstanding hamounts) hadd
    have hdated := ih (fun a' ha' => hleft a' (List.mem_cons_of_mem _ ha')) hnext hfold
    have hdates :
        (if principal a then [dueDate a] else []) ++ (items.filter principal).map dueDate =
          ((a :: items).filter principal).map dueDate := by
      cases hprincipal : principal a <;> simp [hprincipal]
    rwa [List.append_assoc, hdates] at hdated

theorem isDated_of_ofLive {rows : List LiveInstallment} {cutoff : Date} {t : Totals}
    (h : ofLive rows cutoff = .ok t) : t.IsDated (LiveInstallment.overdueDates rows cutoff) :=
  isDated_zero.foldlM (fun _ _ _ => Amounts.isLeft_of_monus) h

theorem isDated_of_ofAllocation {allocated : List Coverage} {cutoff : Date} {t : Totals}
    (h : ofAllocation allocated cutoff = .ok t) :
    t.IsDated (Coverage.overdueDates allocated cutoff) :=
  isDated_zero.foldlM (fun _ _ _ => Amounts.isLeft_of_monus) h

/-- The write of totals is an upsert while the loan is in arrears. -/
theorem isUpsert_ofTotals (loan : LoanId) (t : Totals) :
    (ArrearsWrite.ofTotals loan t).isUpsert = t.inArrears := by
  unfold ArrearsWrite.ofTotals
  cases hsince : t.since with
  | none => simp [ArrearsWrite.isUpsert, inArrears, hsince]
  | some since => cases t.inArrears <;> simp [ArrearsWrite.isUpsert]

theorem IsDated.inArrears_iff {t : Totals} {dates : List Date} (h : t.IsDated dates) :
    t.inArrears ↔ t.overdue.principal.isPositive := by
  rw [inArrears, Bool.and_eq_true, ← h.isPositive_iff, and_self]

end Totals

/-- Whatever the amounts of live or covered installments are and whatever the cutoff: where adding
    up what is outstanding does not overflow, no bucket of the totals is negative, principal is
    overdue exactly if there is a date, and the date is the oldest one of the counted installments
    with principal outstanding. So the write of a loan is an upsert exactly if principal is
    overdue. -/
theorem dated_iff_principal_overdue (cutoff : Date) (t : Totals) (loan : LoanId) :
    (∀ rows, Totals.ofLive rows cutoff = .ok t →
      t.IsDated (LiveInstallment.overdueDates rows cutoff) ∧
      ((ArrearsWrite.ofTotals loan t).isUpsert ↔ t.overdue.principal.isPositive)) ∧
    ∀ allocated, Totals.ofAllocation allocated cutoff = .ok t →
      t.IsDated (Coverage.overdueDates allocated cutoff) ∧
      ((ArrearsWrite.ofTotals loan t).isUpsert ↔ t.overdue.principal.isPositive) := by
  constructor
  · intro rows h
    have hdated := Totals.isDated_of_ofLive h
    exact ⟨hdated, Totals.isUpsert_ofTotals loan t ▸ hdated.inArrears_iff⟩
  · intro allocated h
    have hdated := Totals.isDated_of_ofAllocation h
    exact ⟨hdated, Totals.isUpsert_ofTotals loan t ▸ hdated.inArrears_iff⟩

namespace Sample

/-- The first of two dates. -/
def earlierDate : Date := ⟨Civil.dayNumber ⟨2023, 1, 10⟩, by decide, by decide⟩

/-- The second of two dates. -/
def laterDate : Date := ⟨Civil.dayNumber ⟨2023, 2, 10⟩, by decide, by decide⟩

/-- The day before which both dates are. -/
def cutoffDate : Date := ⟨Civil.dayNumber ⟨2023, 3, 15⟩, by decide, by decide⟩

/-- The largest coefficient, without places. -/
def largestDecimal : Decimal :=
  { Decimal.zero with
    coeff := 79228162514264337593543950335, coeff_lt := by decide, coeff_eq := nofun }

/-- A unit of the last place. -/
def smallestDecimal : Decimal := ⟨1, 28, false, by decide, by decide, nofun⟩

/-- The second installment has the least amount there is and adds nothing to the sum. The third one
    has a negative due. -/
def extremeRows : List LiveInstallment :=
  [⟨1, laterDate, .ofPrincipal largestDecimal, .zero, false⟩,
   ⟨2, earlierDate, .ofPrincipal smallestDecimal, .zero, false⟩,
   ⟨3, earlierDate, .ofPrincipal largestDecimal.neg, .zero, false⟩]

def extremeCoverage : List Coverage :=
  [⟨1, laterDate, .ofPrincipal largestDecimal, .zero, false⟩,
   ⟨2, earlierDate, .ofPrincipal smallestDecimal, .zero, false⟩]

/-- What is left of the largest amount and the smallest one. -/
def extremeTotals : Totals := ⟨.ofPrincipal largestDecimal, some earlierDate⟩

end Sample

/-- The smallest amount vanishes in the sum with the largest one, and still gives the totals their
    date. -/
theorem dated_iff_principal_overdue_sample :
    Totals.ofLive Sample.extremeRows Sample.cutoffDate = .ok Sample.extremeTotals ∧
      Totals.ofAllocation Sample.extremeCoverage Sample.cutoffDate = .ok Sample.extremeTotals ∧
      Sample.extremeTotals.IsDated [Sample.laterDate, Sample.earlierDate] ∧
      (ArrearsWrite.ofTotals 1 Sample.extremeTotals).isUpsert ∧
      Sample.extremeTotals.IsDated
        (Coverage.overdueDates Sample.extremeCoverage Sample.cutoffDate) := by
  have hlive : Totals.ofLive Sample.extremeRows Sample.cutoffDate = .ok Sample.extremeTotals := by
    decide +kernel
  have hcovered : Totals.ofAllocation Sample.extremeCoverage Sample.cutoffDate =
      .ok Sample.extremeTotals := by
    decide +kernel
  obtain ⟨hrows, hallocated⟩ :=
    dated_iff_principal_overdue Sample.cutoffDate Sample.extremeTotals 1
  obtain ⟨hdated, hupsert⟩ := hrows _ hlive
  exact ⟨hlive, hcovered, hdated, hupsert.2 rfl, (hallocated _ hcovered).1⟩

end LoanArrears
