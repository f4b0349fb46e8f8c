-- SUMMARY: The overdue totals of a replayed schedule in closed form: what was due before the cutoff less what was consumed, since the first date whose principal is not covered.
import LoanArrears.Proofs.Schedule.Waterfall

/-!
# Overdue totals in closed form

An allocation pours over the whole schedule, and the cutoff is applied to what it leaves. On a
schedule in due order this is the same as if only the sums were known: in each bucket the dues
before the cutoff, less what was consumed, and since the earliest date up to which more principal
was due than consumed. Sums do not depend on the order of installments that share a due date, so
neither do the totals.
-/

namespace LoanArrears

/-! ## Due order -/

def InDueOrder (schedule : List PlannedInstallment) : Prop :=
  schedule.Pairwise fun s s' => s.dueDate.number ≤ s'.dueDate.number

theorem inDueOrder_of_outOfOrder? {schedule : List PlannedInstallment}
    (h : outOfOrder? schedule = none) : InDueOrder schedule := by
  induction schedule with
  | nil => exact List.Pairwise.nil
  | cons s rest ih =>
    cases rest with
    | nil => exact List.pairwise_singleton _ _
    | cons s' rest =>
      unfold outOfOrder? at h
      split at h
      · cases h
      · next hbefore =>
        have hnext : s.dueDate.number ≤ s'.dueDate.number := by
          simpa [Date.before] using hbefore
        have hrest : InDueOrder (s' :: rest) := ih h
        refine List.pairwise_cons.2 ⟨fun x hx => ?_, hrest⟩
        rcases List.mem_cons.1 hx with rfl | hx
        · exact hnext
        · exact Int.le_trans hnext (List.rel_of_pairwise_cons hrest hx)

theorem outOfOrder?_of_inDueOrder {schedule : List PlannedInstallment} (h : InDueOrder schedule) :
    outOfOrder? schedule = none := by
  induction schedule with
  | nil => rfl
  | cons s rest ih =>
    obtain ⟨hfirst, hrest⟩ := List.pairwise_cons.1 h
    cases rest with
    | nil => rfl
    | cons s' rest =>
      have hbefore : ¬ s'.dueDate.before s.dueDate := by
        simpa [Date.before] using hfirst s' List.mem_cons_self
      rw [outOfOrder?, if_neg hbefore]
      exact ih hrest

/-- A schedule in due order without negative dues is valid. -/
theorem validateSchedule_eq_ok {loan : LoanId} {schedule : List PlannedInstallment}
    (hne : schedule.isEmpty = false) (horder : InDueOrder schedule)
    (hdues : ∀ s ∈ schedule, s.due.anyNegative = false) :
    validateSchedule loan schedule = .ok () := by
  have hfind : schedule.find? (·.due.anyNegative) = none :=
    List.find?_eq_none.2 fun s hs => by simp [hdues s hs]
  rw [validateSchedule, hne, outOfOrder?_of_inDueOrder horder, hfind]
  rfl

theorem inDueOrder_of_validateSchedule {loan : LoanId} {schedule : List PlannedInstallment}
    (h : validateSchedule loan schedule = .ok ()) : InDueOrder schedule := by
  unfold validateSchedule at h
  split at h
  · cases h
  split at h
  · cases h
  · next hnone => exact inDueOrder_of_outOfOrder? hnone

/-! ## Early dates -/

/-- Dates up to some day: with a date all dates before it. -/
def Date.IsEarly (p : Date → Bool) : Prop :=
  ∀ d d' : Date, d.number ≤ d'.number → p d' → p d

namespace Date

theorem isEarly_before (cutoff : Date) : IsEarly (·.before cutoff) := by
  intro d d' hle h
  exact decide_eq_true (Int.lt_of_le_of_lt hle (of_decide_eq_true h))

/-- The day is not past the date. -/
def upTo (x d : Date) : Bool :=
  !x.before d

theorem upTo_iff {x d : Date} : x.upTo d ↔ d.number ≤ x.number := by
  rw [upTo, before, Bool.not_eq_true', decide_eq_false_iff_not, Int.not_lt]

theorem isEarly_upTo (x : Date) : IsEarly x.upTo := by
  intro d d' hle h
  exact upTo_iff.2 (Int.le_trans hle (upTo_iff.1 h))

/-- Later dates do not matter for which one is the oldest. -/
theorem IsOldest.of_cover {dates dates' : List Date} {since : Option Date}
    (h : IsOldest dates since) (hsub : ∀ d ∈ dates, d ∈ dates')
    (hcover : ∀ d' ∈ dates', ∃ d ∈ dates, d.number ≤ d'.number) : IsOldest dates' since := by
  cases since with
  | none =>
    have hnil : dates = [] := h
    refine List.eq_nil_iff_forall_not_mem.2 fun d' hd' => ?_
    obtain ⟨d, hd, -⟩ := hcover d' hd'
    rw [hnil] at hd
    cases hd
  | some s =>
    refine ⟨hsub s h.1, fun d' hd' => ?_⟩
    obtain ⟨d, hd, hle⟩ := hcover d' hd'
    exact Int.le_trans (h.2 d hd) hle

end Date

/-! ## What is left of the early installments -/

/-- The installments with such a due date. -/
def dueWhere (p : Date → Bool) (schedule : List PlannedInstallment) : List PlannedInstallment :=
  schedule.filter fun s => p s.dueDate

theorem dueWhere_cons_of_pos {p : Date → Bool} {s : PlannedInstallment} (hs : p s.dueDate)
    (rest : List PlannedInstallment) : dueWhere p (s :: rest) = s :: dueWhere p rest := by
  simp [dueWhere, hs]

theorem dueWhere_cons_of_neg {p : Date → Bool} {s : PlannedInstallment} (hs : ¬ p s.dueDate)
    (rest : List PlannedInstallment) : dueWhere p (s :: rest) = dueWhere p rest := by
  simp [dueWhere, hs]

theorem dueSum_dueWhere_le (p : Date → Bool) (schedule : List PlannedInstallment) (i : Bucket) :
    dueSum (dueWhere p schedule) i ≤ dueSum schedule i := by
  induction schedule with
  | nil => exact Nat.le_refl _
  | cons s rest ih =>
    rw [dueSum_cons]
    by_cases hs : p s.dueDate
    · rw [dueWhere_cons_of_pos hs, dueSum_cons]
      exact Nat.add_le_add_left ih _
    · rw [dueWhere_cons_of_neg hs]
      exact Nat.le_trans ih (Nat.le_add_left _ _)

/-- What the installments with such a due date leave that are not complete. -/
def leftWhere (p : Date → Bool) (allocated : List Coverage) : List Outstanding :=
  (allocated.filter fun a => p a.dueDate && !a.complete).map (·.left)

theorem overdueCoverage_eq (allocated : List Coverage) (cutoff : Date) :
    overdueCoverage allocated cutoff = leftWhere (·.before cutoff) allocated := rfl

theorem mem_principalDates_leftWhere {p : Date → Bool} {allocated : List Coverage} {d : Date} :
    d ∈ Outstanding.principalDates (leftWhere p allocated) ↔
      p d ∧ ∃ a ∈ allocated, a.dueDate = d ∧ a.complete = false ∧ 0 < a.left.cents.principal := by
  simp only [Outstanding.principalDates, leftWhere, List.mem_map, List.mem_filter,
    Bool.and_eq_true, Bool.not_eq_true', decide_eq_true_eq]
  constructor
  · rintro ⟨o, ⟨⟨a, ⟨ha, hp, hcomplete⟩, rfl⟩, hpos⟩, rfl⟩
    exact ⟨hp, a, ha, rfl, hcomplete, hpos⟩
  · rintro ⟨hp, a, ha, rfl, hcomplete, hpos⟩
    exact ⟨a.left, ⟨⟨a, ⟨ha, hp, hcomplete⟩, rfl⟩, hpos⟩, rfl⟩

namespace Waterfall

variable {schedule : List PlannedInstallment} {pool : Bucket → Nat} {allocated : List Coverage}

theorem map_dueDate (h : Waterfall schedule pool allocated) :
    allocated.map (·.dueDate) = schedule.map (·.dueDate) := by
  have hmap := congrArg (List.map fun x => x.2.1) h.map_eq
  simpa only [List.map_map, Function.comp_def] using hmap

/-- The early installments leave what is due on them and not in the pool: those behind them in
    the list are later, so the pool reaches all of them first. -/
theorem sum_leftWhere (h : Waterfall schedule pool allocated) {p : Date → Bool}
    (hearly : Date.IsEarly p) (horder : InDueOrder schedule) (i : Bucket) :
    Outstanding.sum (leftWhere p allocated) i = dueSum (dueWhere p schedule) i - pool i := by
  induction h with
  | nil => exact (Nat.zero_sub _).symm
  | @cons s rest pool a others takes flows ih =>
    obtain ⟨hlater, hrest⟩ := List.pairwise_cons.1 horder
    have hsum : Outstanding.sum (leftWhere p others) i =
        dueSum (dueWhere p rest) i - (pool i - s.due.cents i) := ih hrest
    by_cases hp : p s.dueDate
    · have hleft : Outstanding.sum (leftWhere p (a :: others)) i =
          (s.due.cents i - pool i) + Outstanding.sum (leftWhere p others) i := by
        by_cases hcomplete : a.complete
        · have hcovered : s.due.cents i ≤ pool i := takes.complete.1 hcomplete i
          have hskip : leftWhere p (a :: others) = leftWhere p others := by
            simp [leftWhere, hcomplete]
          rw [hskip, Nat.sub_eq_zero_of_le hcovered, Nat.zero_add]
        · have hkeep : leftWhere p (a :: others) = a.left :: leftWhere p others := by
            simp [leftWhere, takes.dueDate, hp, hcomplete]
          rw [hkeep, Outstanding.sum_cons, takes.get_left]
      rw [hleft, hsum, dueWhere_cons_of_pos hp, dueSum_cons]
      omega
    · -- Nothing behind an installment that is not early is early.
      have hnone : dueWhere p rest = [] := by
        refine List.filter_eq_nil_iff.2 fun s' hs' hp' => hp ?_
        exact hearly _ _ (hlater s' hs') hp'
      have hskip : leftWhere p (a :: others) = leftWhere p others := by
        simp [leftWhere, takes.dueDate, hp]
      rw [hskip, hsum, dueWhere_cons_of_neg hp, hnone, dueSum_nil, Nat.zero_sub, Nat.zero_sub]

/-- Some early installment is short of principal when more of it was due than the pool has. -/
theorem principalDates_ne_nil_iff (h : Waterfall schedule pool allocated) {p : Date → Bool}
    (hearly : Date.IsEarly p) (horder : InDueOrder schedule) :
    Outstanding.principalDates (leftWhere p allocated) ≠ [] ↔
      pool .principal < dueSum (dueWhere p schedule) .principal := by
  rw [← Outstanding.sum_principal_pos_iff, h.sum_leftWhere hearly horder, Nat.sub_pos_iff_lt]

end Waterfall

/-! ## The closed form -/

/-- The due dates before the cutoff up to which more principal was due than consumed. -/
def shortDates (schedule : List PlannedInstallment) (consumed : Nat) (cutoff : Date) : List Date :=
  (schedule.map (·.dueDate)).filter fun x =>
    x.before cutoff && decide (consumed < dueSum (dueWhere x.upTo schedule) .principal)

/-- The earliest date that is short is the earliest one of an installment that is. -/
theorem Waterfall.isOldest_shortDates {schedule : List PlannedInstallment} {pool : Bucket → Nat}
    {allocated : List Coverage} (h : Waterfall schedule pool allocated)
    (horder : InDueOrder schedule) {cutoff : Date} {since : Option Date}
    (hsince : Date.IsOldest
      (Outstanding.principalDates (leftWhere (·.before cutoff) allocated)) since) :
    Date.IsOldest (shortDates schedule (pool .principal) cutoff) since := by
  have hshort {x : Date} : x ∈ shortDates schedule (pool .principal) cutoff ↔
      x ∈ schedule.map (·.dueDate) ∧ x.before cutoff ∧
        Outstanding.principalDates (leftWhere x.upTo allocated) ≠ [] := by
    rw [shortDates, List.mem_filter, Bool.and_eq_true, decide_eq_true_eq,
      h.principalDates_ne_nil_iff (Date.isEarly_upTo x) horder]
  refine hsince.of_cover (fun x hx => ?_) (fun x hx => ?_)
  · obtain ⟨hbefore, a, ha, rfl, hleft⟩ := mem_principalDates_leftWhere.1 hx
    refine hshort.2 ⟨?_, hbefore, ?_⟩
    · rw [← h.map_dueDate]
      exact List.mem_map_of_mem ha
    · have hself : a.dueDate.upTo a.dueDate := Date.upTo_iff.2 (Int.le_refl _)
      exact List.ne_nil_of_mem (mem_principalDates_leftWhere.2 ⟨hself, a, ha, rfl, hleft⟩)
  · obtain ⟨-, hbefore, hne⟩ := hshort.1 hx
    obtain ⟨d, hd⟩ := List.exists_mem_of_ne_nil _ hne
    obtain ⟨hupTo, a, ha, rfl, hleft⟩ := mem_principalDates_leftWhere.1 hd
    have hle : a.dueDate.number ≤ x.number := Date.upTo_iff.1 hupTo
    refine ⟨a.dueDate, mem_principalDates_leftWhere.2 ⟨?_, a, ha, rfl, hleft⟩, hle⟩
    exact Date.isEarly_before cutoff _ _ hle hbefore

namespace Totals

/-- The totals are those of a schedule of which so much was consumed: in each bucket what was due
    before the cutoff and not consumed, since the first date with principal short. -/
structure IsReplayed (t : Totals) (schedule : List PlannedInstallment) (consumed : Bucket → Nat)
    (cutoff : Date) : Prop where
  overdue : ∀ i, (t.overdue.get i).IsCents
    (dueSum (dueWhere (·.before cutoff) schedule) i - consumed i : Nat)
  since : Date.IsOldest (shortDates schedule (consumed .principal) cutoff) t.since
  inArrears : t.inArrears ↔
    consumed .principal < dueSum (dueWhere (·.before cutoff) schedule) .principal

/-- Installments that share a due date can change places. -/
theorem IsReplayed.perm {t t' : Totals} {schedule schedule' : List PlannedInstallment}
    {consumed : Bucket → Nat} {cutoff : Date} (h : t.IsReplayed schedule consumed cutoff)
    (h' : t'.IsReplayed schedule' consumed cutoff) (p : schedule'.Perm schedule) :
    t'.since = t.since ∧ ∀ i, (t'.overdue.get i).eqv (t.overdue.get i) := by
  have hdues (q : Date → Bool) (i : Bucket) :
      dueSum (dueWhere q schedule') i = dueSum (dueWhere q schedule) i :=
    dueSum_perm (p.filter _) i
  constructor
  · refine h'.since.unique h.since fun d => ?_
    simp only [shortDates, List.mem_filter, hdues, (p.map _).mem_iff]
  · intro i
    have hcents := h'.overdue i
    rw [hdues] at hcents
    exact hcents.eqv (h.overdue i)

theorem Counts.inArrears_iff {t : Totals} {os : List Outstanding} (h : t.Counts os) :
    t.inArrears ↔ Outstanding.principalDates os ≠ [] := by
  have hold := h.isOldest
  rw [h.inArrears_eq]
  cases hsince : t.since with
  | none =>
    rw [hsince] at hold
    exact iff_of_false Bool.false_ne_true (not_not_intro hold)
  | some d =>
    rw [hsince] at hold
    exact iff_of_true rfl (List.ne_nil_of_mem hold.1)

/-- What a waterfall leaves before the cutoff adds up to the closed form. -/
theorem exists_isReplayed {schedule : List PlannedInstallment} {pool : Bucket → Nat}
    {allocated : List Coverage} (h : Waterfall schedule pool allocated)
    (horder : InDueOrder schedule) (hlimit : ∀ i, dueSum schedule i < Decimal.coeffLimit)
    (cutoff : Date) :
    ∃ t, Totals.ofAllocation allocated cutoff = .ok t ∧ t.IsReplayed schedule pool cutoff := by
  have hsum (i : Bucket) : Outstanding.sum (overdueCoverage allocated cutoff) i =
      dueSum (dueWhere (·.before cutoff) schedule) i - pool i := by
    rw [overdueCoverage_eq]
    exact h.sum_leftWhere (Date.isEarly_before cutoff) horder i
  have hlt (i : Bucket) :
      Outstanding.sum (overdueCoverage allocated cutoff) i < Decimal.coeffLimit := by
    rw [hsum]
    exact Nat.lt_of_le_of_lt
      (Nat.le_trans (Nat.sub_le _ _) (dueSum_dueWhere_le _ schedule i)) (hlimit i)
  obtain ⟨t, ht, hcounts⟩ := Totals.exists_ofAllocation_of_lt h.isSound hlt
  refine ⟨t, ht, ?_, h.isOldest_shortDates horder hcounts.isOldest, ?_⟩
  · intro i
    rw [← hsum]
    exact hcounts.isCents i
  · exact hcounts.inArrears_iff.trans
      (h.principalDates_ne_nil_iff (Date.isEarly_before cutoff) horder)

end Totals

/-- An accepted schedule of stored dues, with stored totals that are not negative, replays to the
    closed form at every cutoff, as long as the dues of each bucket add up in the range of
    decimals; and installments that share a due date can come in any order. -/
theorem replay_closed_form {loan : LoanId} {schedule : List PlannedInstallment}
    {consumed : Amounts} (hvalid : validateSchedule loan schedule = .ok ())
    (hdues : ∀ s ∈ schedule, s.due.IsStored) (hconsumed : consumed.IsStored)
    (hnonneg : consumed.anyNegative = false)
    (hlimit : ∀ i, dueSum schedule i < Decimal.coeffLimit) (cutoff : Date) :
    ∃ allocated t, allocate schedule consumed = .ok allocated ∧
      Totals.ofAllocation allocated cutoff = .ok t ∧
      t.IsReplayed schedule consumed.cents cutoff ∧
      ∀ schedule' : List PlannedInstallment, schedule'.Perm schedule →
        validateSchedule loan schedule' = .ok () →
        ∃ allocated' t', allocate schedule' consumed = .ok allocated' ∧
          Totals.ofAllocation allocated' cutoff = .ok t' ∧
          t'.since = t.since ∧ ∀ i, (t'.overdue.get i).eqv (t.overdue.get i) := by
  have hreplay {schedule' : List PlannedInstallment} (p : schedule'.Perm schedule)
      (hvalid' : validateSchedule loan schedule' = .ok ()) :
      ∃ allocated t, allocate schedule' consumed = .ok allocated ∧
        Totals.ofAllocation allocated cutoff = .ok t ∧
        t.IsReplayed schedule' consumed.cents cutoff := by
    have hcents : ∀ s ∈ schedule', s.due.AreCents := fun s hs =>
      (hdues s (p.mem_iff.1 hs)).areCents (not_anyNegative_of_validateSchedule hvalid' s hs)
    obtain ⟨allocated, hallocate, hflows⟩ := exists_waterfall hcents (hconsumed.areCents hnonneg)
    obtain ⟨t, ht, hreplayed⟩ := Totals.exists_isReplayed hflows
      (inDueOrder_of_validateSchedule hvalid') (fun i => dueSum_perm p i ▸ hlimit i) cutoff
    exact ⟨allocated, t, hallocate, ht, hreplayed⟩
  obtain ⟨allocated, t, hallocate, ht, hreplayed⟩ := hreplay (List.Perm.refl _) hvalid
  refine ⟨allocated, t, hallocate, ht, hreplayed, fun schedule' p hvalid' => ?_⟩
  obtain ⟨allocated', t', hallocate', ht', hreplayed'⟩ := hreplay p hvalid'
  obtain ⟨hsince, hoverdue⟩ := hreplayed.perm hreplayed' p
  exact ⟨allocated', t', hallocate', ht', hsince, hoverdue⟩

/-- On 15 March 2024 the sample owes 80 of principal since the second due date, and no fees. -/
theorem replay_closed_form_sample :
    ∃ allocated t, allocate Sample.schedule Sample.consumed = .ok allocated ∧
      Totals.ofAllocation allocated ⟨Civil.dayNumber ⟨2024, 3, 15⟩, by decide, by decide⟩ = .ok t ∧
      (t.overdue.get .principal).IsCents 8000 ∧ (t.overdue.get .fee).IsCents 0 ∧
      t.since = some Sample.secondDueDate ∧ t.inArrears := by
  obtain ⟨allocated, t, hallocate, ht, hreplayed, -⟩ := replay_closed_form
    (show validateSchedule 1 Sample.schedule = .ok () from rfl) Sample.isStored_schedule
    Sample.isStored_consumed rfl (fun i => by cases i <;> decide +kernel)
    ⟨Civil.dayNumber ⟨2024, 3, 15⟩, by decide, by decide⟩
  have hsince : Date.IsOldest [Sample.secondDueDate] (some Sample.secondDueDate) :=
    ⟨List.mem_singleton_self _, fun d hd => List.mem_singleton.1 hd ▸ Int.le_refl _⟩
  have hshort : shortDates Sample.schedule (Sample.consumed.cents .principal)
      ⟨Civil.dayNumber ⟨2024, 3, 15⟩, by decide, by decide⟩ = [Sample.secondDueDate] := by
    decide +kernel
  refine ⟨allocated, t, hallocate, ht, hreplayed.overdue .principal, hreplayed.overdue .fee,
    (hshort ▸ hreplayed.since).unique hsince fun _ => Iff.rfl, hreplayed.inArrears.2 ?_⟩
  decide +kernel

end LoanArrears
