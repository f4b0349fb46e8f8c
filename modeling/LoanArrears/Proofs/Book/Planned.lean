-- SUMMARY: Aging by the planned schedule: it counts or is refused as bad data, and counts nothing for a loan that is no candidate.
import LoanArrears.Proofs.Book.Compute
import LoanArrears.Proofs.Book.Live
import LoanArrears.Proofs.Book.Writes
import LoanArrears.Proofs.Schedule.Allocation

/-!
# Aging by the planned schedule

A loan that replays its planned schedule is refused for bad data or gets totals that count what
an allocation leaves; as long as it has a cutoff it does not crash. Without an installment due
before the cutoff the totals are zero, so a loan that is no candidate has no entry.
-/

namespace LoanArrears

/-! ## Refusals -/

theorem class_of_validateSchedule_eq_error {loan : LoanId} {schedule : List PlannedInstallment}
    {e : Error} (h : validateSchedule loan schedule = .error e) : e.class = .data := by
  unfold validateSchedule at h
  split at h
  · cases h
    rfl
  split at h
  · cases h
    rfl
  split at h
  · cases h
    rfl
  · cases h

theorem Consumption.class_of_validate_eq_error {c : Consumption} {e : Error}
    (h : c.validate = .error e) : e.class = .data := by
  unfold validate at h
  split at h
  · cases h
    rfl
  · cases h

theorem Consumption.not_anyNegative_of_validate {c : Consumption} (h : c.validate = .ok ()) :
    c.consumed.anyNegative = false := by
  unfold validate at h
  split at h
  · cases h
  · next hneg => exact Bool.eq_false_iff.2 hneg

/-- Totals read for a loan that is there are cents, or cannot be read for its data. -/
theorem Book.consumption_cases {b : Book} {id : LoanId} {l : Loan}
    (hl : b.loans.find? id = some l) :
    (∃ e : Error, b.consumption id = .error e ∧ e.class = .data) ∨
      ∃ c, b.consumption id = .ok ⟨id, Amounts.ofCents c⟩ := by
  unfold consumption
  rw [hl]
  dsimp only
  cases hread : l.consumed.readStored 0 consumptionColumns with
  | error e => exact .inl ⟨e, rfl, Buckets.class_of_readStored_eq_error hread⟩
  | ok c => exact .inr ⟨c, rfl⟩

/-! ## Planned schedules -/

namespace Loan

/-- The installments of the planned schedule, as they are read. -/
def plannedRows (l : Loan) : List PlannedInstallment :=
  (byDueText (·.dueDate) (·.installment) l.plannedEntries).map HistoryEntry.read

/-- The planned schedule is made of the entries with the lowest version. -/
theorem mem_plannedEntries_iff {l : Loan} {e : HistoryEntry} :
    e ∈ l.plannedEntries ↔ e ∈ l.history ∧ ∀ other ∈ l.history, e.version ≤ other.version := by
  rw [plannedEntries, List.mem_filter, decide_eq_true_iff, eq_comm, firstVersion?,
    List.min?_eq_some_iff]
  refine and_congr_right fun he => ?_
  simp only [List.mem_map, forall_exists_index, and_imp, forall_apply_eq_imp_iff₂]
  exact ⟨fun h => h.2, fun h => ⟨⟨e, he, rfl⟩, h⟩⟩

/-- A loan with a history has a planned schedule. -/
theorem plannedEntries_ne_nil {l : Loan} (h : l.history ≠ []) : l.plannedEntries ≠ [] := by
  obtain ⟨v, hv⟩ := Option.isSome_iff_exists.1
    (List.isSome_min?_of_ne_nil (l := l.history.map (·.version)) (by simpa using h))
  obtain ⟨e, he, hversion⟩ := List.mem_map.1 (List.min?_mem hv)
  refine List.ne_nil_of_mem (a := e) (List.mem_filter.2 ⟨he, ?_⟩)
  rw [decide_eq_true_iff, firstVersion?, hv, hversion]

theorem plannedRows_isEmpty {l : Loan} (h : l.history ≠ []) : l.plannedRows.isEmpty = false := by
  obtain ⟨e, he⟩ := List.exists_mem_of_ne_nil _ (plannedEntries_ne_nil h)
  have hrow : e.read ∈ l.plannedRows := List.mem_map_of_mem (mem_byDueText.2 he)
  simpa using List.ne_nil_of_mem hrow

theorem mem_plannedRows {l : Loan} {s : PlannedInstallment} (h : s ∈ l.plannedRows) :
    ∃ e ∈ l.plannedEntries, e.read = s := by
  obtain ⟨e, he, hread⟩ := List.mem_map.1 h
  exact ⟨e, mem_byDueText.1 he, hread⟩

theorem length_plannedRows (l : Loan) : l.plannedRows.length = l.plannedEntries.length := by
  rw [plannedRows, List.length_map]
  exact List.length_mergeSort _

end Loan

namespace Book

variable {b : Book} {today : Date} {id : LoanId} {l : Loan} {terms : AgingTerms}

theorem plannedInstallments_eq (hl : b.loans.find? id = some l) :
    b.plannedInstallments id = l.plannedRows := by
  unfold plannedInstallments
  rw [hl]
  rfl

theorem plannedTotals?_eq (hl : b.loans.find? id = some l) (hne : l.history ≠ [])
    (hloan : terms.loan = id) (hhistory : terms.hasHistory) :
    b.plannedTotals? terms today = do
      validateSchedule id l.plannedRows
      let lifetime ← b.consumption id
      lifetime.validate
      let allocated ← allocate l.plannedRows lifetime.consumed
      let cutoff ← today.cutoff terms.grace
      let totals ← Totals.ofAllocation allocated cutoff
      return some totals := by
  unfold plannedTotals?
  simp only [hhistory, Bool.not_true, Bool.false_eq_true, if_false, hloan,
    plannedInstallments_eq hl, Loan.plannedRows_isEmpty hne]

/-- Planned totals that are computed come from the allocated rows and the cutoff. -/
theorem exists_of_plannedTotals? (hl : b.loans.find? id = some l) (hne : l.history ≠ [])
    (hloan : terms.loan = id) (hhistory : terms.hasHistory) {totals : Option Totals}
    (h : b.plannedTotals? terms today = .ok totals) :
    ∃ consumed allocated cutoff t, allocate l.plannedRows consumed = .ok allocated ∧
      today.cutoff terms.grace = .ok cutoff ∧ Totals.ofAllocation allocated cutoff = .ok t ∧
      totals = some t := by
  rw [plannedTotals?_eq hl hne hloan hhistory] at h
  obtain ⟨-, -, h⟩ := exists_of_bind_eq_ok h
  obtain ⟨lifetime, -, h⟩ := exists_of_bind_eq_ok h
  obtain ⟨-, -, h⟩ := exists_of_bind_eq_ok h
  obtain ⟨allocated, hallocate, h⟩ := exists_of_bind_eq_ok h
  obtain ⟨cutoff, hcutoff, h⟩ := exists_of_bind_eq_ok h
  obtain ⟨t, ht, h⟩ := exists_of_bind_eq_ok h
  cases h
  exact ⟨lifetime.consumed, allocated, cutoff, t, eq_ok_of_lift_crash hallocate,
    eq_ok_of_lift_crash hcutoff, eq_ok_of_lift_crash ht, rfl⟩

/-- A valid planned schedule is allocated, and what the allocation leaves is counted up to any
    cutoff. -/
theorem exists_ofPlanned (hnumbered : l.HasNumberedHistory) {c : Buckets Cents}
    (hvalid : validateSchedule id l.plannedRows = .ok ())
    (hlifetime : Consumption.validate ⟨id, Amounts.ofCents c⟩ = .ok ()) :
    ∃ allocated, allocate l.plannedRows (Amounts.ofCents c) = .ok allocated ∧
      Waterfall l.plannedRows (Amounts.ofCents c).cents allocated ∧
      ∀ cutoff, ∃ t, Totals.ofAllocation allocated cutoff = .ok t ∧
        t.Counts (overdueCoverage allocated cutoff) := by
  have hschedule : ∀ s ∈ l.plannedRows, s.due.AreCents := by
    intro s hs
    obtain ⟨e, -, rfl⟩ := Loan.mem_plannedRows hs
    exact Amounts.areCents_ofCents (not_anyNegative_of_validateSchedule hvalid _ hs)
  have hpool : (Amounts.ofCents c).AreCents :=
    Amounts.areCents_ofCents (Consumption.not_anyNegative_of_validate hlifetime)
  obtain ⟨allocated, hallocate, hflows⟩ := exists_waterfall hschedule hpool
  have hlength : allocated.length ≤ Bound.nat32 := by
    have hdates := congrArg List.length (dueDate_of_allocate hallocate)
    rw [List.length_map, List.length_map, Loan.length_plannedRows] at hdates
    rw [hdates]
    exact hnumbered.length_plannedEntries_le
  exact ⟨allocated, hallocate, hflows,
    fun cutoff => Totals.exists_ofAllocation hflows.isSound hlength cutoff⟩

/-- A planned schedule is refused for bad data, or it is left to count its allocation up to the
    cutoff. -/
theorem plannedTotals?_cases (hl : b.loans.find? id = some l) (hnumbered : l.HasNumberedHistory)
    (hne : l.history ≠ []) (hloan : terms.loan = id) (hhistory : terms.hasHistory)
    (today : Date) :
    (∃ e : Error, b.plannedTotals? terms today = .error (.error e) ∧ e.class = .data ∧
      ¬ (validateSchedule id l.plannedRows = .ok () ∧
        ∃ lifetime, b.consumption id = .ok lifetime ∧ lifetime.validate = .ok ())) ∨
    ∃ lifetime allocated, validateSchedule id l.plannedRows = .ok () ∧
      b.consumption id = .ok lifetime ∧ lifetime.validate = .ok () ∧
      (∀ cutoff, ∃ t os, Totals.ofAllocation allocated cutoff = .ok t ∧ t.Counts os) ∧
      b.plannedTotals? terms today = do
        let cutoff ← today.cutoff terms.grace
        let totals ← Totals.ofAllocation allocated cutoff
        return some totals := by
  rw [plannedTotals?_eq hl hne hloan hhistory]
  cases hvalid : validateSchedule id l.plannedRows with
  | error e => exact .inl ⟨e, rfl, class_of_validateSchedule_eq_error hvalid, by simp⟩
  | ok =>
    rcases consumption_cases hl with ⟨e, hconsumption, hdata⟩ | ⟨c, hconsumption⟩
    · rw [hconsumption]
      exact .inl ⟨e, rfl, hdata, by simp⟩
    · rw [hconsumption]
      cases hlifetime : Consumption.validate ⟨id, Amounts.ofCents c⟩ with
      | error e =>
        refine .inl ⟨e, ?_, Consumption.class_of_validate_eq_error hlifetime, by simp [hlifetime]⟩
        simp only [liftM, monadLift, MonadLift.monadLift, bind, Except.bind, hlifetime]
      | ok =>
        obtain ⟨allocated, hallocate, -, hcounts⟩ := exists_ofPlanned hnumbered hvalid hlifetime
        refine .inr ⟨_, allocated, rfl, rfl, hlifetime, fun cutoff => ?_, ?_⟩
        · obtain ⟨t, ht, hos⟩ := hcounts cutoff
          exact ⟨t, _, ht, hos⟩
        simp only [liftM, monadLift, MonadLift.monadLift, bind, Except.bind, hlifetime, hallocate]

/-- With a cutoff, a planned schedule is refused for bad data or counted. -/
theorem plannedTotals?_of_cutoff (hl : b.loans.find? id = some l)
    (hnumbered : l.HasNumberedHistory) (hne : l.history ≠ []) (hloan : terms.loan = id)
    (hhistory : terms.hasHistory) {cutoff : Date}
    (hcutoff : today.cutoff terms.grace = .ok cutoff) :
    (∃ e : Error, b.plannedTotals? terms today = .error (.error e) ∧ e.class = .data) ∨
      ∃ t os, b.plannedTotals? terms today = .ok (some t) ∧ t.Counts os := by
  rcases plannedTotals?_cases hl hnumbered hne hloan hhistory today with
    ⟨e, hplanned, hdata, -⟩ | ⟨-, allocated, -, -, -, hcounts, hplanned⟩
  · exact .inl ⟨e, hplanned, hdata⟩
  · obtain ⟨t, os, ht, hos⟩ := hcounts cutoff
    refine .inr ⟨t, os, ?_, hos⟩
    rw [hplanned, hcutoff]
    simp only [liftM, monadLift, MonadLift.monadLift, bind, Except.bind, ht]
    rfl

/-- A planned schedule without an installment due before the cutoff counts nothing. -/
theorem plannedTotals?_of_not_before (hl : b.loans.find? id = some l) (hne : l.history ≠ [])
    (hloan : terms.loan = id) (hhistory : terms.hasHistory)
    (hdates : ∀ e ∈ l.plannedEntries, ¬ e.dueDate.number < today.number - terms.grace)
    {totals : Option Totals} (h : b.plannedTotals? terms today = .ok totals) :
    totals = some .zero := by
  obtain ⟨consumed, allocated, cutoff, t, hallocate, hcutoff, ht, rfl⟩ :=
    exists_of_plannedTotals? hl hne hloan hhistory h
  have hnone : ∀ a ∈ allocated, a.dueDate.before cutoff = false := by
    intro a ha
    have hmem : a.dueDate ∈ l.plannedRows.map (·.dueDate) := by
      rw [← dueDate_of_allocate hallocate]
      exact List.mem_map_of_mem ha
    obtain ⟨s, hs, hdue⟩ := List.mem_map.1 hmem
    obtain ⟨e, he, rfl⟩ := Loan.mem_plannedRows hs
    rw [← hdue, Date.before, Date.number_of_cutoff hcutoff]
    exact decide_eq_false (hdates e he)
  rw [Totals.ofAllocation_of_not_before hnone] at ht
  cases ht
  rfl

/-! ## Candidates -/

variable {p : Product}

theorem isCandidate_iff (hp : b.products.find? l.product = some p) :
    b.isCandidate today l ↔ l.isActive ∧ p.byPlannedSchedule ∧
      ∃ e ∈ l.plannedEntries, e.dueDate.isBeforeText (today.cutoffText? (l.graceOf p)) := by
  unfold isCandidate
  rw [hp]
  simp only [Bool.and_eq_true, List.any_eq_true]

theorem exists_product_of_isCandidate (h : b.isCandidate today l) :
    ∃ p, b.products.find? l.product = some p := by
  unfold isCandidate at h
  cases hp : b.products.find? l.product with
  | some p => exact ⟨p, rfl⟩
  | none => simp [hp] at h

theorem replays_of_isCandidate (hp : b.products.find? l.product = some p)
    (h : b.isCandidate today l) : l.replays p := by
  obtain ⟨-, hplanned, e, he, -⟩ := (isCandidate_iff hp).1 h
  have hhistory : l.history.isEmpty = false := by
    have hne := List.ne_nil_of_mem (List.mem_of_mem_filter he)
    simpa using hne
  rw [Loan.replays, hplanned, hhistory]
  rfl

theorem history_ne_nil_of_replays (h : l.replays p) : l.history ≠ [] := by
  intro hnil
  unfold Loan.replays at h
  rw [hnil] at h
  simp at h

theorem hasHistory_of_replays (id : LoanId) (h : l.replays p) :
    (l.activeTerms id p).hasHistory := by
  simpa [Loan.activeTerms] using history_ne_nil_of_replays h

/-- The write of an active loan that replays is that of its planned totals. -/
theorem writeOf_of_replays (hl : b.loans.find? id = some l)
    (hp : b.products.find? l.product = some p) (hactive : l.isActive) (hreplays : l.replays p) :
    b.writeOf id today .auto = (do
      match ← b.plannedTotals? (l.activeTerms id p) today with
      | some totals => return .ofTotals id totals
      | none => return .ofTotals id (← b.liveTotals (l.activeTerms id p) today)) := by
  have hterms : (l.activeTerms id p).replaysPlanned := hreplays
  rw [writeOf_of_isActive hl hp hactive, activeWriteOf_replayed hterms]
  rfl

/-- The write of a loan that replays is that of totals which count what it owes. -/
theorem exists_counts_of_replays (hl : b.loans.find? id = some l)
    (hp : b.products.find? l.product = some p) (hactive : l.isActive) (hreplays : l.replays p)
    (hnumbered : l.HasNumberedHistory) {w : ArrearsWrite}
    (h : b.writeOf id today .auto = .ok w) : ∃ t os, w = .ofTotals id t ∧ t.Counts os := by
  have hne := history_ne_nil_of_replays hreplays
  have hhistory := hasHistory_of_replays id hreplays
  rw [writeOf_of_replays hl hp hactive hreplays] at h
  obtain ⟨totals, htotals, h⟩ := exists_of_bind_eq_ok h
  obtain ⟨-, -, cutoff, -, -, hcutoff, -⟩ := exists_of_plannedTotals? hl hne rfl hhistory htotals
  rcases plannedTotals?_of_cutoff hl hnumbered hne rfl hhistory hcutoff with
    ⟨e, hplanned, -⟩ | ⟨t, os, hplanned, hcounts⟩
  · rw [hplanned] at htotals
    cases htotals
  · rw [hplanned] at htotals
    cases htotals
    cases h
    exact ⟨t, os, rfl, hcounts⟩

/-- What goes wrong with a candidate is its data. -/
theorem isData_of_isCandidate (hl : b.loans.find? id = some l) (hnumbered : l.HasNumberedHistory)
    (hcandidate : b.isCandidate today l) {f : Fault} (h : b.entryOf id today = .error f) :
    f.IsData := by
  obtain ⟨p, hp⟩ := exists_product_of_isCandidate hcandidate
  obtain ⟨hactive, -, e, -, hbefore⟩ := (isCandidate_iff hp).1 hcandidate
  have hreplays := replays_of_isCandidate hp hcandidate
  have hne := history_ne_nil_of_replays hreplays
  have hhistory := hasHistory_of_replays id hreplays
  obtain ⟨cutoff, hcutoff⟩ := Date.exists_cutoff hbefore
  unfold entryOf at h
  rw [writeOf_of_replays hl hp hactive hreplays] at h
  rcases plannedTotals?_of_cutoff hl hnumbered hne rfl hhistory hcutoff with
    ⟨e, hplanned, hdata⟩ | ⟨t, os, hplanned, hcounts⟩
  · rw [hplanned] at h
    cases h
    exact hdata
  · rw [hplanned] at h
    exact hcounts.isData_of_entryLeft_eq_error h

/-- A loan that replays but is no candidate is not in arrears. -/
theorem writeOf_of_not_isCandidate (hl : b.loans.find? id = some l)
    (hp : b.products.find? l.product = some p) (hactive : l.isActive) (hreplays : l.replays p)
    (htoday : today.HasFourDigitYear) (hyears : ∀ e ∈ l.history, e.dueDate.HasFourDigitYear)
    (hcandidate : ¬ b.isCandidate today l) {w : ArrearsWrite}
    (h : b.writeOf id today .auto = .ok w) : w = .delete id := by
  have hne := history_ne_nil_of_replays hreplays
  have hhistory := hasHistory_of_replays id hreplays
  have hplanned : p.byPlannedSchedule := (Bool.and_eq_true_iff.1 hreplays).1
  have hdates : ∀ e ∈ l.plannedEntries,
      ¬ e.dueDate.number < today.number - (l.activeTerms id p).grace := by
    intro e he hbefore
    refine hcandidate ((isCandidate_iff hp).2 ⟨hactive, hplanned, e, he, ?_⟩)
    rw [Date.isBeforeText_cutoffText? (hyears e (List.mem_of_mem_filter he)) htoday]
    exact decide_eq_true hbefore
  rw [writeOf_of_replays hl hp hactive hreplays] at h
  obtain ⟨totals, htotals, h⟩ := exists_of_bind_eq_ok h
  have hzero := plannedTotals?_of_not_before hl hne rfl hhistory hdates htotals
  rw [hzero] at h
  cases h
  rfl

end Book

end LoanArrears
