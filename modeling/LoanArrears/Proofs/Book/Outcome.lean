-- SUMMARY: How computing the write of a loan ends, for every book that is built: with an error, with counted totals, or with a crash when the cutoff is before the first date.
import LoanArrears.Proofs.Book.Numbered
import LoanArrears.Proofs.Book.Planned

/-!
# Outcomes

The sums of a book that is built never leave the range of decimals, neither on the live schedule
nor in the allocation of a planned one. What is left to crash is the cutoff: a loan whose schedule
can be read (`Book.IsReadable`) has counted totals if the business date less the days of grace
is a date, and crashes if it is not (`Book.AgingEnds`).
-/

namespace LoanArrears

namespace Book

variable {b : Book} {today : Date} {mode : AgingMode} {id : LoanId} {l : Loan} {terms : AgingTerms}

/-- What the mode reads of the schedule of a loan is valid. -/
def IsReadable (b : Book) (terms : AgingTerms) (mode : AgingMode) : Prop :=
  if mode = .auto ∧ terms.replaysPlanned then
    validateSchedule terms.loan (b.plannedInstallments terms.loan) = .ok () ∧
      ∃ lifetime, b.consumption terms.loan = .ok lifetime ∧ lifetime.validate = .ok ()
  else ∃ rows, b.liveInstallments terms.loan = .ok rows

/-- The ways in which aging a loan ends. -/
inductive AgingEnds (b : Book) (terms : AgingTerms) (today : Date) (mode : AgingMode) :
    Except Fault Totals → Prop where
  | unreadable (e : Error) (hread : ¬ b.IsReadable terms mode) :
    AgingEnds b terms today mode (.error (.error e))
  | beforeRange (c : Crash) (hread : b.IsReadable terms mode)
    (hcutoff : today.cutoff terms.grace = .error c) :
    AgingEnds b terms today mode (.error (.crash c))
  | counted (t : Totals) (os : List Outstanding) (cutoff : Date)
    (hread : b.IsReadable terms mode) (hcutoff : today.cutoff terms.grace = .ok cutoff)
    (hcounts : t.Counts os) : AgingEnds b terms today mode (.ok t)

/-! ## Live schedules -/

/-- Installments that can be read have exact columns. -/
theorem isExact_of_liveInstallments (hl : b.loans.find? id = some l)
    {rows : List LiveInstallment} (h : b.liveInstallments id = .ok rows) :
    ∀ e ∈ l.schedule, ∀ i, (e.consumed.get i).isExact := by
  intro e he i
  unfold liveInstallments at h
  rw [hl] at h
  obtain ⟨row, hrow⟩ := exists_mapM_eq_ok_iff.1 ⟨rows, h⟩ e (Loan.mem_byDueText.2 he)
  unfold LiveEntry.read at hrow
  obtain ⟨c, hc, -⟩ := exists_of_bind_eq_ok hrow
  rw [Buckets.readStored_eq_ok_iff.1 hc, Buckets.get_map]
  rfl

theorem agingEnds_liveTotals (hl : b.loans.find? id = some l) (hnumbered : l.HasNumberedSchedule)
    (hloan : terms.loan = id) (hmode : ¬(mode = .auto ∧ terms.replaysPlanned)) :
    b.AgingEnds terms today mode (b.liveTotals terms today) := by
  have hreadable : b.IsReadable terms mode ↔ ∃ rows, b.liveInstallments id = .ok rows := by
    rw [IsReadable, if_neg hmode, hloan]
  unfold liveTotals
  rw [hloan]
  cases hrows : b.liveInstallments id with
  | error e =>
    refine .unreadable e fun hread => ?_
    obtain ⟨rows, hrows'⟩ := hreadable.1 hread
    rw [hrows] at hrows'
    cases hrows'
  | ok rows =>
    have hexact := isExact_of_liveInstallments hl hrows
    have hread : b.IsReadable terms mode := hreadable.2 ⟨rows, hrows⟩
    rw [liveInstallments_eq_ok hl hexact] at hrows
    cases hrows
    cases hcutoff : today.cutoff terms.grace with
    | error c => exact .beforeRange c hread hcutoff
    | ok cutoff =>
      obtain ⟨t, ht, hcounts⟩ := Loan.exists_ofLive_of_lt hexact
        (hnumbered.sum_overdueLive_lt hexact today terms.grace) hcutoff
      simp only [liftM, monadLift, MonadLift.monadLift, bind, Except.bind, ht]
      exact .counted t _ cutoff hread hcutoff hcounts

/-! ## Planned schedules -/

/-- A planned schedule is there, so its totals are not left to the live one. -/
theorem agingEnds_plannedTotals? (hl : b.loans.find? id = some l)
    (hnumbered : l.HasNumberedHistory) (hne : l.history ≠ []) (hloan : terms.loan = id)
    (hreplays : terms.replaysPlanned) (hhistory : terms.hasHistory) :
    ∃ x, b.AgingEnds terms today .auto x ∧ b.plannedTotals? terms today = some <$> x := by
  have hreadable : b.IsReadable terms .auto ↔ validateSchedule id l.plannedRows = .ok () ∧
      ∃ lifetime, b.consumption id = .ok lifetime ∧ lifetime.validate = .ok () := by
    rw [IsReadable, if_pos ⟨rfl, hreplays⟩, hloan, plannedInstallments_eq hl]
  rcases plannedTotals?_cases hl hnumbered hne hloan hhistory today with
    ⟨e, hplanned, -, hread⟩ |
    ⟨lifetime, allocated, hvalid, hconsumption, hlifetime, hcounts, hplanned⟩
  · exact ⟨_, .unreadable e (mt hreadable.1 hread), hplanned⟩
  · have hread : b.IsReadable terms .auto :=
      hreadable.2 ⟨hvalid, lifetime, hconsumption, hlifetime⟩
    rw [hplanned]
    cases hcutoff : today.cutoff terms.grace with
    | error c => exact ⟨_, .beforeRange c hread hcutoff, rfl⟩
    | ok cutoff =>
      obtain ⟨t, os, ht, hos⟩ := hcounts cutoff
      refine ⟨_, .counted t os cutoff hread hcutoff hos, ?_⟩
      simp only [liftM, monadLift, MonadLift.monadLift, bind, Except.bind, ht]
      rfl

/-! ## Writes -/

/-- The write of an active loan is that of its totals, if aging it ends with totals. -/
theorem exists_agingEnds (hl : b.loans.find? id = some l) {p : Product}
    (hschedule : l.HasNumberedSchedule) (hhistory : l.HasNumberedHistory) (today : Date)
    (mode : AgingMode) :
    ∃ x, b.AgingEnds (l.activeTerms id p) today mode x ∧
      b.activeWriteOf (l.activeTerms id p) today mode = .ofTotals id <$> x := by
  by_cases hmode : mode = .auto ∧ (l.activeTerms id p).replaysPlanned
  · obtain ⟨rfl, hreplays⟩ := hmode
    have hloan : l.replays p := hreplays
    obtain ⟨x, hx, hplanned⟩ := @agingEnds_plannedTotals? b today id l _ hl hhistory
      (history_ne_nil_of_replays hloan) rfl hreplays (hasHistory_of_replays id hloan)
    refine ⟨x, hx, ?_⟩
    rw [activeWriteOf_replayed hreplays, hplanned]
    cases x <;> rfl
  · refine ⟨_, agingEnds_liveTotals hl hschedule rfl hmode, ?_⟩
    rw [activeWriteOf_live hmode]
    cases b.liveTotals (l.activeTerms id p) today <;> rfl

/-- In a book that is built, the write of a loan cannot be computed without the terms of the loan,
    is a delete if the loan is not active, and otherwise ends as aging it does. -/
theorem IsBuilt.writeOf_cases (hb : b.IsBuilt) (id : LoanId) (today : Date) (mode : AgingMode) :
    (∃ e : Error, b.terms id = .error e ∧ b.writeOf id today mode = .error (.error e)) ∨
    (∃ terms, b.terms id = .ok terms ∧ ¬ terms.status.isActive ∧
      b.writeOf id today mode = .ok (.delete id)) ∨
    ∃ terms x, b.terms id = .ok terms ∧ terms.status.isActive ∧ b.AgingEnds terms today mode x ∧
      b.writeOf id today mode = .ofTotals id <$> x := by
  cases hterms : b.terms id with
  | error e => exact .inl ⟨e, rfl, writeOf_of_terms_error hterms today mode⟩
  | ok terms =>
    by_cases hactive : terms.status.isActive
    · obtain ⟨l, p, hl, hp, hloan, rfl⟩ := exists_activeTerms hterms hactive
      obtain ⟨x, hx, hwrite⟩ := exists_agingEnds (p := p) hl (hb.hasNumberedSchedules id l hl)
        (hb.sound.histories id l hl) today mode
      rw [writeOf_of_isActive hl hp hloan today mode]
      exact .inr (.inr ⟨_, x, rfl, hactive, hx, hwrite⟩)
    · refine .inr (.inl ⟨terms, rfl, hactive, ?_⟩)
      rw [writeOf_of_terms hterms, if_pos (by simpa using hactive)]

/-- A write that is computed is a delete or that of counted totals. -/
theorem IsBuilt.cases_of_writeOf (hb : b.IsBuilt) {w : ArrearsWrite}
    (h : b.writeOf id today mode = .ok w) :
    w = .delete id ∨ ∃ t os, w = .ofTotals id t ∧ t.Counts os := by
  rcases hb.writeOf_cases id today mode with ⟨e, -, hwrite⟩ | ⟨-, -, -, hwrite⟩ |
    ⟨terms, x, -, -, hx, hwrite⟩
  · rw [hwrite] at h
    cases h
  · rw [hwrite] at h
    cases h
    exact .inl rfl
  · rw [hwrite] at h
    cases hx with
    | unreadable e hread => cases h
    | beforeRange c hread hcutoff => cases h
    | counted t os cutoff hread hcutoff hcounts =>
      cases h
      exact .inr ⟨t, os, rfl, hcounts⟩

end Book

end LoanArrears
