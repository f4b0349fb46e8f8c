-- SUMMARY: What an active loan owes on its open installments, and that its write on any day is that of the part due before the cutoff; so arrears only grow with the date.
import LoanArrears.Proofs.Arrears.Comparing
import LoanArrears.Proofs.Book.Outcome

/-!
# What a loan owes

The business date decides which installments are overdue, not what is outstanding on them. On the
live schedule that is what each installment leaves by itself, and on a planned one what the whole
allocation leaves (`Loan.Owes`). So the write of a loan on any day comes from one list, cut off at
that day, and between two days nothing but the cutoff changes.
-/

namespace LoanArrears

open Outstanding (dueBefore)

/-- What an active loan owes on its open installments, overdue or not, on the schedule that the
    mode reads. -/
inductive Loan.Owes (l : Loan) (id : LoanId) (p : Product) (mode : AgingMode) :
    List Outstanding → Prop where
  | live (hmode : ¬(mode = .auto ∧ l.replays p))
    (hexact : ∀ e ∈ l.schedule, ∀ i, (e.consumed.get i).isExact) :
    Owes l id p mode ((l.schedule.filter (!·.fullyCompleted)).map (·.owed))
  | planned {c : Buckets Cents} {allocated : List Coverage} (hmode : mode = .auto ∧ l.replays p)
    (hvalid : validateSchedule id l.plannedRows = .ok ()) (hconsumed : l.consumed = exactly c)
    (hlifetime : Consumption.validate ⟨id, Amounts.ofCents c⟩ = .ok ())
    (hallocate : allocate l.plannedRows (Amounts.ofCents c) = .ok allocated)
    (hflows : Waterfall l.plannedRows (Amounts.ofCents c).cents allocated) :
    Owes l id p mode ((allocated.filter (!·.complete)).map (·.left))

section

variable {b : Book} {today cutoff : Date} {mode : AgingMode} {id : LoanId} {l : Loan} {p : Product}

/-! ## Cutting off -/

/-- Without days of grace a date is its own cutoff. -/
theorem Date.cutoff_zero (d : Date) : d.cutoff 0 = .ok d := by
  rw [cutoff, cutoff?, subDays?_zero]
  rfl

theorem Date.exists_cutoff_of_le {today' : Date} {grace : Nat}
    (hle : today.number ≤ today'.number) (h : today.cutoff grace = .ok cutoff) :
    ∃ cutoff', today'.cutoff grace = .ok cutoff' ∧ cutoff.number ≤ cutoff'.number := by
  have hnumber := number_of_cutoff h
  cases hcutoff : today'.cutoff grace with
  | ok cutoff' =>
    have hnumber' := number_of_cutoff hcutoff
    exact ⟨cutoff', rfl, by omega⟩
  | error c =>
    have hlt := lt_of_cutoff_eq_error hcutoff cutoff
    omega

theorem Loan.overdueLive_eq {grace : Nat} (h : today.cutoff grace = .ok cutoff) :
    l.overdueLive today grace =
      dueBefore cutoff ((l.schedule.filter (!·.fullyCompleted)).map (·.owed)) := by
  simp only [overdueLive, dueBefore, List.filter_map, List.filter_filter]
  refine congrArg (List.map _) (List.filter_congr fun e _ => ?_)
  simp only [LiveEntry.isOverdue, LiveEntry.owed, Function.comp_apply, Date.before,
    Date.number_of_cutoff h, Bool.and_comm]

/-- What a numbered live schedule leaves open is counted up to any cutoff. -/
theorem Loan.HasNumberedSchedule.exists_ofLive (h : l.HasNumberedSchedule)
    (hexact : ∀ e ∈ l.schedule, ∀ i, (e.consumed.get i).isExact) (cutoff : Date) :
    ∃ t, Totals.ofLive l.liveRows cutoff = .ok t ∧
      t.Counts (dueBefore cutoff ((l.schedule.filter (!·.fullyCompleted)).map (·.owed))) := by
  rw [← overdueLive_eq cutoff.cutoff_zero]
  exact exists_ofLive_of_lt hexact (h.sum_overdueLive_lt hexact cutoff 0) cutoff.cutoff_zero

theorem overdueCoverage_eq_dueBefore (allocated : List Coverage) (cutoff : Date) :
    overdueCoverage allocated cutoff =
      dueBefore cutoff ((allocated.filter (!·.complete)).map (·.left)) := by
  simp only [overdueCoverage, dueBefore, List.filter_map, List.filter_filter]
  rfl

/-! ## Writes -/

namespace Book

/-- What the mode reads of a loan, if it can be read, says what the loan owes. -/
theorem exists_owes (hl : b.loans.find? id = some l) (hhistory : l.HasNumberedHistory)
    (h : b.IsReadable (l.activeTerms id p) mode) : ∃ os, l.Owes id p mode os := by
  have hterms : (l.activeTerms id p).loan = id := rfl
  by_cases hmode : mode = .auto ∧ l.replays p
  · have hread : validateSchedule id l.plannedRows = .ok () ∧
        ∃ lifetime, b.consumption id = .ok lifetime ∧ lifetime.validate = .ok () := by
      rw [← plannedInstallments_eq hl]
      simpa only [IsReadable, hterms, if_pos (show mode = .auto ∧
        (l.activeTerms id p).replaysPlanned from hmode)] using h
    obtain ⟨hvalid, lifetime, hconsumption, hlifetime⟩ := hread
    unfold consumption at hconsumption
    simp only [hl] at hconsumption
    obtain ⟨c, hc, hconsumption⟩ := exists_of_bind_eq_ok hconsumption
    cases hconsumption
    obtain ⟨allocated, hallocate, hflows, -⟩ := exists_ofPlanned hhistory hvalid hlifetime
    exact ⟨_, .planned hmode hvalid (Buckets.readStored_eq_ok_iff.1 hc) hlifetime hallocate hflows⟩
  · have hread : ∃ rows, b.liveInstallments id = .ok rows := by
      simpa only [IsReadable, hterms, if_neg (show ¬(mode = .auto ∧
        (l.activeTerms id p).replaysPlanned) from hmode)] using h
    obtain ⟨rows, hrows⟩ := hread
    exact ⟨_, .live hmode (isExact_of_liveInstallments hl hrows)⟩

/-- The write of an active loan on any day is that of what it owes before the cutoff. -/
theorem exists_writeOf_of_owes (hl : b.loans.find? id = some l)
    (hp : b.products.find? l.product = some p) (hactive : l.isActive)
    (hschedule : l.HasNumberedSchedule) (hhistory : l.HasNumberedHistory) {os : List Outstanding}
    (howes : l.Owes id p mode os) (hcutoff : today.cutoff (l.graceOf p) = .ok cutoff) :
    ∃ t, b.writeOf id today mode = .ok (.ofTotals id t) ∧ t.Counts (dueBefore cutoff os) := by
  rw [writeOf_of_isActive hl hp hactive]
  cases howes with
  | live hmode hexact =>
    obtain ⟨t, ht, hcounts⟩ := hschedule.exists_ofLive hexact cutoff
    have hlive : ¬(mode = .auto ∧ (l.activeTerms id p).replaysPlanned) := hmode
    refine ⟨t, ?_, hcounts⟩
    rw [activeWriteOf_live hlive, liveTotals,
      show (l.activeTerms id p).loan = id from rfl, liveInstallments_eq_ok hl hexact,
      show (l.activeTerms id p).grace = l.graceOf p from rfl, hcutoff]
    simp only [liftM, monadLift, MonadLift.monadLift, bind, Except.bind, ht]
    rfl
  | @planned c allocated hmode hvalid hconsumed hlifetime hallocate hflows =>
    obtain ⟨allocated', hallocate', -, hcounts⟩ := exists_ofPlanned hhistory hvalid hlifetime
    rw [hallocate] at hallocate'
    cases hallocate'
    obtain ⟨t, ht, hcounts⟩ := hcounts cutoff
    rw [overdueCoverage_eq_dueBefore] at hcounts
    refine ⟨t, ?_, hcounts⟩
    have hconsumption : b.consumption id = .ok ⟨id, Amounts.ofCents c⟩ := by
      have hread : l.consumed.readStored 0 consumptionColumns = .ok c :=
        Buckets.readStored_eq_ok_iff.2 hconsumed
      simp only [consumption, hl, hread]
      rfl
    have hplanned : b.plannedTotals? (l.activeTerms id p) today = .ok (some t) := by
      rw [plannedTotals?_eq hl (history_ne_nil_of_replays hmode.2) rfl
        (hasHistory_of_replays id hmode.2), hvalid, hconsumption,
        show (l.activeTerms id p).grace = l.graceOf p from rfl, hcutoff]
      simp only [liftM, monadLift, MonadLift.monadLift, bind, Except.bind, hlifetime, hallocate, ht]
      rfl
    have hreplays : (l.activeTerms id p).replaysPlanned := hmode.2
    rw [hmode.1, activeWriteOf_replayed hreplays, hplanned]
    rfl

/-- The loan is found active with its product, and this is what it owes. -/
structure IsOwed (b : Book) (id : LoanId) (mode : AgingMode) (l : Loan) (p : Product)
    (os : List Outstanding) : Prop where
  find? : b.loans.find? id = some l
  product : b.products.find? l.product = some p
  active : l.isActive
  owes : l.Owes id p mode os

theorem IsBuilt.exists_writeOf (hb : b.IsBuilt) {os : List Outstanding}
    (h : b.IsOwed id mode l p os) (hcutoff : today.cutoff (l.graceOf p) = .ok cutoff) :
    ∃ t, b.writeOf id today mode = .ok (.ofTotals id t) ∧ t.Counts (dueBefore cutoff os) :=
  exists_writeOf_of_owes h.find? h.product h.active (hb.hasNumberedSchedules id l h.find?)
    (hb.sound.histories id l h.find?) h.owes hcutoff

/-- A write that is computed is a delete, as the loan is not active, or it is known what the loan
    owes and up to which cutoff. -/
theorem IsBuilt.isOwed_of_writeOf (hb : b.IsBuilt) {w : ArrearsWrite}
    (h : b.writeOf id today mode = .ok w) :
    (∃ terms, b.terms id = .ok terms ∧ ¬ terms.status.isActive ∧ w = .delete id) ∨
      ∃ l p os cutoff, b.IsOwed id mode l p os ∧ today.cutoff (l.graceOf p) = .ok cutoff := by
  rcases hb.writeOf_cases id today mode with ⟨e, -, hwrite⟩ | ⟨terms, hterms, hstatus, hwrite⟩ |
    ⟨terms, x, hterms, hstatus, hx, hwrite⟩
  · rw [hwrite] at h
    cases h
  · rw [hwrite] at h
    cases h
    exact .inl ⟨terms, hterms, hstatus, rfl⟩
  · rw [hwrite] at h
    obtain ⟨l, p, hl, hp, hactive, rfl⟩ := exists_activeTerms hterms hstatus
    cases hx with
    | unreadable e hread => cases h
    | beforeRange c hread hcutoff => cases h
    | counted t os cutoff hread hcutoff hcounts =>
      obtain ⟨os, howes⟩ := exists_owes hl (hb.sound.histories id l hl) hread
      exact .inr ⟨l, p, os, cutoff, ⟨hl, hp, hactive, howes⟩, hcutoff⟩

end Book

end

/-! ## Later dates -/

/-- Arrears only grow from one day to a later one: a write that is computed on the first day is
    computed on the other, and a row keeps its date and loses nothing of its amounts. -/
theorem arrears_grow_with_date {b : Book} (hb : b.IsBuilt) {s : Store} (hs : s.HasBook b)
    (id : LoanId) (mode : AgingMode) {today later : Date} (hle : today.number ≤ later.number)
    {w : ArrearsWrite}
    (hw : ((computeWrite id today mode : Act Store ArrearsWrite).exec s).1 = .ok w) :
    ∃ w', ((computeWrite id later mode : Act Store ArrearsWrite).exec s).1 = .ok w' ∧
      w.GrowsTo w' := by
  simp only [hs.computeWrite_eq] at hw ⊢
  rcases hb.isOwed_of_writeOf hw with ⟨terms, hterms, hstatus, rfl⟩ |
    ⟨l, p, os, cutoff, howed, hcutoff⟩
  · refine ⟨.delete id, ?_, ArrearsWrite.growsTo_delete id _⟩
    rw [Book.writeOf_of_terms hterms, if_pos (by simpa using hstatus)]
  · obtain ⟨cutoff', hcutoff', hcutoffs⟩ := Date.exists_cutoff_of_le hle hcutoff
    obtain ⟨t, ht, hcounts⟩ := hb.exists_writeOf howed hcutoff
    obtain ⟨t', ht', hcounts'⟩ := hb.exists_writeOf howed hcutoff'
    rw [ht] at hw
    cases hw
    exact ⟨_, ht', hcounts.growsTo hcutoffs hcounts' id⟩

namespace Sample

/-- 15 April 2024. -/
def later : Date := ⟨Civil.dayNumber ⟨2024, 4, 15⟩, by decide, by decide⟩

/-- Loan 1 is in arrears by its live schedule, since the one due date there is. -/
theorem exists_writeOf_liveLoan :
    ∃ a, (book 2).writeOf 1 today .auto = .ok (.upsert a) ∧ a.since = dueDate := by
  have howed : (book 2).IsOwed 1 .auto liveLoan ⟨"live", false, 0⟩
      (liveLoan.schedule.map (·.owed)) := by
    refine ⟨rfl, rfl, rfl, .live (by decide) fun e he i => ?_⟩
    rw [List.mem_singleton.1 he]
    cases i <;> rfl
  obtain ⟨t, hwrite, hcounts⟩ := (isBuilt_book (by decide)).exists_writeOf howed today.cutoff_zero
  have hold : Date.IsOldest [dueDate] (some dueDate) := by simp [Date.IsOldest]
  have hsince : t.since = some dueDate := hcounts.isOldest.unique hold fun _ => Iff.rfl
  exact ⟨_, hwrite.trans (congrArg _ (hcounts.ofTotals_of_since hsince 1)), rfl⟩

end Sample

/-- Loan 1 is in arrears in March, and in April since the same date. -/
theorem arrears_grow_sample :
    ∃ a, ((computeWrite 1 Sample.later .auto : Act Store ArrearsWrite).exec
        ⟨some ⟨Sample.book 2, Table.empty⟩, false⟩).1 = .ok (.upsert a) ∧
      a.since = Sample.dueDate := by
  have hbook : Store.HasBook ⟨some ⟨Sample.book 2, Table.empty⟩, false⟩ (Sample.book 2) :=
    ⟨Table.empty, rfl⟩
  obtain ⟨march, hmarch, hdue⟩ := Sample.exists_writeOf_liveLoan
  obtain ⟨w', hw', hgrows⟩ := arrears_grow_with_date (Sample.isBuilt_book (by decide)) hbook 1
    .auto (show Sample.today.number ≤ Sample.later.number by decide)
    ((hbook.computeWrite_eq 1 Sample.today .auto).trans hmarch)
  obtain ⟨a, rfl, -, hsince, -⟩ := hgrows march rfl
  exact ⟨a, hw', hsince.trans hdue⟩

end LoanArrears
