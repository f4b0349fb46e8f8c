-- SUMMARY: Aging by the live schedule: the bulk insert, on stored numbers and texts, counts the same installments as a single loan does.
import LoanArrears.Proofs.Book.Bulk
import LoanArrears.Proofs.Book.Compute
import LoanArrears.Proofs.Calendar.TextOrder
import Mathlib.Algebra.BigOperators.Ring.Finset

/-!
# Aging by the live schedule

`Loan.overdueLive` is what a loan owes on the installments that are due before the cutoff. The
bulk insert adds it up on stored numbers and compares dates as texts; a single loan is aged on
decimals and dates, in the order of due dates. As long as the stored numbers stay in range
(`Loan.FitsLive`) and dates have four-digit years, both leave the entry that records it.
-/

namespace LoanArrears

/-! ## Exact numbers -/

namespace Stored

theorem exists_of_isExact {a : Stored} (h : a.isExact) : ∃ c, a = .exact c := by
  cases a with
  | exact c => exact ⟨c, rfl⟩
  | approx v => cases h

/-- A combination is exact only when both numbers are, and then nothing was rounded. -/
theorem isExact_of_combine {op : Int → Int → Int} {a b : Stored} (h : (combine op a b).isExact) :
    a.isExact ∧ b.isExact ∧ (combine op a b).val = op a.val b.val := by
  cases a with
  | approx v => cases h
  | exact x =>
    cases b with
    | approx w => cases h
    | exact y =>
      cases hc : Cents.ofInt? (op x.val y.val) with
      | none => simp [combine, hc, isExact] at h
      | some c =>
        refine ⟨rfl, rfl, ?_⟩
        simp only [combine, hc, Option.map_some, Option.getD_some, val]
        exact Cents.val_of_ofInt? hc

theorem isExact_of_add {a b : Stored} (h : (a.add b).isExact) :
    a.isExact ∧ b.isExact ∧ (a.add b).val = a.val + b.val :=
  isExact_of_combine h

theorem isExact_of_sub {a b : Stored} (h : (a.sub b).isExact) :
    a.isExact ∧ b.isExact ∧ (a.sub b).val = a.val - b.val :=
  isExact_of_combine h

theorem floor_exact {a : Stored} (h : a.isExact) :
    ∃ c : Cents, a.floor = .exact c ∧ c.val = a.val.toNat := by
  obtain ⟨c, rfl⟩ := exists_of_isExact h
  unfold floor
  split
  · next hneg => exact ⟨.zero, rfl, by rw [Int.toNat_of_nonpos (Int.le_of_lt hneg)]; rfl⟩
  · next hneg => exact ⟨c, rfl, (Int.toNat_of_nonneg (Int.not_lt.1 hneg)).symm⟩

theorem foldl_val (column : List Stored) (start : Int) :
    column.foldl (· + ·.val) start = start + (column.map (·.val)).sum := by
  induction column generalizing start with
  | nil => simp
  | cons a column ih => rw [List.foldl_cons, ih, List.map_cons, List.sum_cons, Int.add_assoc]

/-- A column of exact numbers, none of them negative, has its sum if that is in range. -/
theorem sum?_eq_exact {items : List α} {f : α → Stored} {n : α → Nat}
    (h : ∀ a ∈ items, ∃ c : Cents, f a = .exact c ∧ c.val = n a)
    (hlt : (items.map n).sum < Bound.int64) :
    ∃ c : Cents, sum? (items.map f) = some (.exact c) ∧ c.val = (items.map n).sum := by
  have hall : (items.map f).all isExact := by
    rw [List.all_eq_true]
    intro v hv
    obtain ⟨a, ha, rfl⟩ := List.mem_map.1 hv
    obtain ⟨c, hc, -⟩ := h a ha
    rw [hc]
    rfl
  have hvals : (items.map f).map (·.val) = (items.map n).map Nat.cast := by
    rw [List.map_map, List.map_map]
    refine List.map_congr_left fun a ha => ?_
    obtain ⟨c, hc, hval⟩ := h a ha
    simp only [Function.comp_apply, hc, val, hval]
  obtain ⟨c, hc, hval⟩ := Cents.exists_of_lt hlt
  refine ⟨c, ?_, hval⟩
  simp only [sum?, hall, if_true, foldl_val, hvals, ← Nat.cast_list_sum, Int.zero_add, hc]
  rfl

end Stored

/-! ## Live installments -/

/-- What a live installment that was read leaves unpaid. -/
def LiveInstallment.left (r : LiveInstallment) : Outstanding where
  dueDate := r.dueDate
  cents := .tabulate fun i => ((r.due.get i).coeff - (r.consumed.get i).coeff).toNat

namespace LiveEntry

/-- What the installment leaves unpaid; a bucket that is overpaid leaves nothing. -/
def owed (e : LiveEntry) : Outstanding where
  dueDate := e.dueDate
  cents := .tabulate fun i => ((e.due.get i).val - (e.consumed.get i).val).toNat

/-- The installment is due before the business date less the days of grace. -/
def isOverdue (e : LiveEntry) (today : Date) (grace : Nat) : Bool :=
  !e.fullyCompleted && e.dueDate.number < today.number - grace

/-- What is stored of the installment, when its columns are exact. -/
def row (e : LiveEntry) : LiveInstallment where
  installment := e.installment
  dueDate := e.dueDate
  due := Amounts.ofCents e.due
  consumed := e.consumed.map fun v => match v with
    | .exact c => Decimal.ofCents c
    | .approx _ => .zero
  completed := e.fullyCompleted

variable {e : LiveEntry}

theorem read_eq_ok (h : ∀ i, (e.consumed.get i).isExact) : e.read = .ok e.row := by
  choose c hc using fun i => Stored.exists_of_isExact (h i)
  have hconsumed : e.consumed = (Buckets.tabulate c).map .exact := by
    apply Buckets.ext_get
    intro i
    rw [hc, Buckets.get_map, Buckets.get_tabulate]
  have hread : e.consumed.readStored 6 liveColumns = .ok (Buckets.tabulate c) :=
    Buckets.readStored_eq_ok_iff.2 hconsumed
  unfold read row
  rw [hread, hconsumed]
  rfl

theorem exists_monus (h : ∀ i, (e.consumed.get i).isExact) :
    e.row.left = e.owed ∧
      ∃ b, Amounts.monus e.row.due e.row.consumed = .ok b ∧
        ∀ i, (b.get i).IsCents (e.owed.cents.get i) := by
  have hdue (i : Bucket) : (e.row.due.get i).IsCents (e.due.get i).val := by
    rw [row, Amounts.ofCents, Buckets.get_map]
    exact Decimal.isCents_ofCents _
  have hconsumed (i : Bucket) : ∃ c : Cents, e.consumed.get i = .exact c ∧
      (e.row.consumed.get i).IsCents c.val := by
    obtain ⟨c, hc⟩ := Stored.exists_of_isExact (h i)
    refine ⟨c, hc, ?_⟩
    rw [row, Buckets.get_map, hc]
    exact Decimal.isCents_ofCents c
  constructor
  · have hcents : e.row.left.cents = e.owed.cents := by
      apply Buckets.ext_get
      intro i
      obtain ⟨c, hc, hcents⟩ := hconsumed i
      rw [LiveInstallment.left, owed, Buckets.get_tabulate, Buckets.get_tabulate, (hdue i).1,
        hcents.1, hc]
      rfl
    show Outstanding.mk e.dueDate e.row.left.cents = ⟨e.dueDate, e.owed.cents⟩
    rw [hcents]
  · unfold Amounts.monus
    apply Buckets.exists_zipWithM_eq_ok (p := fun i (b : Decimal) => b.IsCents (e.owed.cents.get i))
    intro i
    obtain ⟨c, hc, hcents⟩ := hconsumed i
    have hlimit : ((e.due.get i).val - c.val).natAbs < Decimal.coeffLimit := by
      have hdlo := (e.due.get i).lo_le
      have hdhi := (e.due.get i).lt_hi
      have hlo := c.lo_le
      have hhi := c.lt_hi
      unfold Decimal.coeffLimit Bound.nat96
      omega
    rw [owed, Buckets.get_tabulate, hc]
    exact (hdue i).exists_monus hcents hlimit

/-- What is outstanding of a bucket, if it can be computed exactly in both ways. -/
theorem val_outstanding {i : Bucket} (hconsumed : (e.consumed.get i).isExact)
    (houtstanding : (e.outstanding.get i).isExact) :
    (e.outstanding.get i).val = (e.due.get i).val - (e.consumed.get i).val := by
  unfold consumed at hconsumed ⊢
  unfold outstanding at houtstanding ⊢
  simp only [Buckets.get_zipWith, exactly, Buckets.get_map] at hconsumed houtstanding ⊢
  obtain ⟨hcompleted, -, hconsumed⟩ := Stored.isExact_of_add hconsumed
  obtain ⟨-, -, hcompleted⟩ := Stored.isExact_of_add hcompleted
  obtain ⟨hwaived, -, hleft⟩ := Stored.isExact_of_sub houtstanding
  obtain ⟨hpaid, -, hwaived⟩ := Stored.isExact_of_sub hwaived
  obtain ⟨-, -, hpaid⟩ := Stored.isExact_of_sub hpaid
  rw [hconsumed, hcompleted, hleft, hwaived, hpaid]
  simp only [Stored.val]
  omega

end LiveEntry

/-! ## Sums and dates of the bulk insert -/

theorem Date.minByText_eq_min {a b : Date} (ha : a.HasFourDigitYear) (hb : b.HasFourDigitYear) :
    a.minByText b = a.min b := by
  unfold minByText Date.min before
  by_cases h : b.number < a.number
  · rw [if_pos ((toText_lt_iff hb ha).2 h), if_pos (decide_eq_true h)]
  · rw [if_neg (mt (toText_lt_iff hb ha).1 h), if_neg (by simpa using h)]

theorem Date.IsOldest.foldl_minByText {dates others : List Date} {since : Option Date}
    (h : IsOldest dates since) (hyears : ∀ d ∈ dates ++ others, d.HasFourDigitYear) :
    IsOldest (dates ++ others)
      (others.foldl (fun since d => some ((since.map (·.minByText d)).getD d)) since) := by
  induction others generalizing dates since with
  | nil =>
    rw [List.append_nil]
    exact h
  | cons d others ih =>
    have happend : dates ++ d :: others = dates ++ [d] ++ others := by simp
    rw [happend] at hyears ⊢
    have hpush : IsOldest (dates ++ [d]) (some ((since.map (·.minByText d)).getD d)) := by
      cases since with
      | none => exact h.push d
      | some s =>
        have hs : s.HasFourDigitYear := hyears s (by simp [h.1])
        have hd : d.HasFourDigitYear := hyears d (by simp)
        rw [Option.map_some, Option.getD_some, minByText_eq_min hs hd]
        exact h.push d
    exact ih hpush hyears

namespace LiveEntry

variable {entries : List LiveEntry}

/-- The sums of the bulk insert are those of what is owed, as long as they are in range. -/
theorem overdueSums_eq_ok
    (h : ∀ e ∈ entries, ∀ i, (e.consumed.get i).isExact ∧ (e.outstanding.get i).isExact)
    (hlt : ∀ i, Outstanding.sum (entries.map owed) i < Bound.int64) :
    ∃ sums, overdueSums entries = .ok sums ∧
      ∀ i, ∃ c : Cents, sums.get i = .exact c ∧
        c.val = Outstanding.sum (entries.map owed) i := by
  have hcolumn (i : Bucket) : ∃ c : Cents,
      Stored.sum? (entries.map fun e => (e.outstanding.get i).floor) = some (.exact c) ∧
        c.val = Outstanding.sum (entries.map owed) i := by
    have hsum : Outstanding.sum (entries.map owed) i =
        (entries.map fun e => e.owed.cents.get i).sum := by
      rw [Outstanding.sum, List.map_map]
      rfl
    have hlt' := hlt i
    rw [hsum] at hlt' ⊢
    refine Stored.sum?_eq_exact ?_ hlt'
    intro e he
    obtain ⟨hconsumed, houtstanding⟩ := h e he i
    obtain ⟨c, hc, hval⟩ := Stored.floor_exact houtstanding
    refine ⟨c, hc, ?_⟩
    rw [hval, val_outstanding hconsumed houtstanding, owed, Buckets.get_tabulate]
  choose c hc hval using hcolumn
  refine ⟨.tabulate fun i => .exact (c i), ?_, fun i => ⟨c i, Buckets.get_tabulate _ i, hval i⟩⟩
  have hprincipal := hc .principal
  have hinterest := hc .interest
  have hfee := hc .fee
  have hpenalty := hc .penalty
  simp only [Buckets.get] at hprincipal hinterest hfee hpenalty
  simp only [overdueSums, hprincipal, hinterest, hfee, hpenalty]
  rfl

theorem isOldest_overdueSince?
    (h : ∀ e ∈ entries, ∀ i, (e.consumed.get i).isExact ∧ (e.outstanding.get i).isExact)
    (hyears : ∀ e ∈ entries, e.dueDate.HasFourDigitYear) :
    Date.IsOldest (Outstanding.principalDates (entries.map owed)) (overdueSince? entries) := by
  have hdates : Outstanding.principalDates (entries.map owed) =
      (entries.filter (0 < ·.outstanding.principal.val)).map (·.dueDate) := by
    rw [Outstanding.principalDates, List.filter_map, List.map_map]
    refine congrArg (List.map _) (List.filter_congr fun e he => ?_)
    obtain ⟨hconsumed, houtstanding⟩ := h e he .principal
    have hval := val_outstanding hconsumed houtstanding
    simp only [Buckets.get] at hval
    show decide (0 < e.owed.cents.principal) = decide (0 < e.outstanding.principal.val)
    rw [decide_eq_decide, hval]
    simp only [owed, Buckets.tabulate, Buckets.get]
    omega
  rw [hdates]
  refine @Date.IsOldest.foldl_minByText [] _ none rfl ?_
  intro d hd
  obtain ⟨e, he, rfl⟩ := List.mem_map.1 hd
  exact hyears e (List.mem_of_mem_filter he)

end LiveEntry

/-! ## Loans -/

namespace Loan

/-- What the loan owes on overdue installments of its live schedule. -/
def overdueLive (l : Loan) (today : Date) (grace : Nat) : List Outstanding :=
  (l.schedule.filter (·.isOverdue today grace)).map (·.owed)

/-- The installments that the bulk insert takes as overdue. -/
def overdueByText (l : Loan) (cutoff : Option String) : List LiveEntry :=
  l.schedule.filter fun e => !e.fullyCompleted && e.dueDate.isBeforeText cutoff

/-- The stored numbers that the loan is aged by, and their sum, are in range. -/
structure FitsLive (l : Loan) (today : Date) (grace : Nat) : Prop where
  consumed : ∀ e ∈ l.schedule, ∀ i, (e.consumed.get i).isExact
  outstanding : ∀ e ∈ l.schedule, e.isOverdue today grace → ∀ i, (e.outstanding.get i).isExact
  total : Outstanding.total (l.overdueLive today grace) < Bound.int64

theorem isAgedInBulk_eq (l : Loan) (p : Product) :
    l.isAgedInBulk p = (l.isActive && !l.replays p) := by
  unfold isAgedInBulk replays
  cases p.byPlannedSchedule <;> cases l.history.isEmpty <;> rfl

variable {l : Loan} {today : Date} {grace : Nat}

theorem FitsLive.sum_lt (h : l.FitsLive today grace) (i : Bucket) :
    Outstanding.sum (l.overdueLive today grace) i < Bound.int64 :=
  Nat.lt_of_le_of_lt (Outstanding.sum_le_total _ i) h.total

theorem bulkEntry?_of_overdueSums {cutoff : Option String} {sums : Buckets Stored}
    (hsums : overdueSums (l.overdueByText cutoff) = .ok sums) :
    l.bulkEntry? cutoff =
      match overdueSince? (l.overdueByText cutoff) with
      | some since =>
        if 0 < sums.principal.val then
          .ok (some ⟨sums.map Stored.settle, sums.storedSum.settle, since⟩)
        else .ok none
      | none => .ok none := by
  unfold overdueByText at hsums
  unfold bulkEntry?
  dsimp only
  rw [hsums]
  rfl

theorem bulkEntry?_of_overdueSums_error {cutoff : Option String} {e : Error}
    (hsums : overdueSums (l.overdueByText cutoff) = .error e) : l.bulkEntry? cutoff = .error e := by
  unfold overdueByText at hsums
  unfold bulkEntry?
  dsimp only
  rw [hsums]
  rfl

theorem overdueByText_cutoffText? (htoday : today.HasFourDigitYear)
    (hyears : ∀ e ∈ l.schedule, e.dueDate.HasFourDigitYear) :
    l.overdueByText (today.cutoffText? grace) = l.schedule.filter (·.isOverdue today grace) := by
  apply List.filter_congr
  intro e he
  rw [Date.isBeforeText_cutoffText? (hyears e he) htoday, LiveEntry.isOverdue]

/-- The bulk insert leaves what the loan owes. -/
theorem exists_bulkEntry? (hfits : l.FitsLive today grace) (htoday : today.HasFourDigitYear)
    (hyears : ∀ e ∈ l.schedule, e.dueDate.HasFourDigitYear) :
    ∃ e, l.bulkEntry? (today.cutoffText? grace) = .ok e ∧
      Outstanding.Leaves (l.overdueLive today grace) e := by
  let entries := l.schedule.filter (·.isOverdue today grace)
  have hentries : l.overdueByText (today.cutoffText? grace) = entries :=
    overdueByText_cutoffText? htoday hyears
  have hexact : ∀ e ∈ entries, ∀ i, (e.consumed.get i).isExact ∧ (e.outstanding.get i).isExact := by
    intro e he i
    obtain ⟨hmem, hoverdue⟩ := List.mem_filter.1 he
    exact ⟨hfits.consumed e hmem i, hfits.outstanding e hmem hoverdue i⟩
  obtain ⟨sums, hsums, hvals⟩ := LiveEntry.overdueSums_eq_ok hexact hfits.sum_lt
  have hold : Date.IsOldest (Outstanding.principalDates (l.overdueLive today grace))
      (overdueSince? entries) :=
    LiveEntry.isOldest_overdueSince? hexact fun e he => hyears e (List.mem_of_mem_filter he)
  have hentry := @bulkEntry?_of_overdueSums l (today.cutoffText? grace) sums
  rw [hentries] at hentry
  rw [hentry hsums]
  cases hsince : overdueSince? entries with
  | none =>
    rw [hsince] at hold
    exact ⟨none, rfl, hold⟩
  | some since =>
    rw [hsince] at hold
    have hpos : 0 < sums.principal.val := ArrearsEntry.principal_pos_of_sums hvals hold
    obtain ⟨c, -, hc⟩ := Cents.exists_of_lt hfits.total
    have htotal : sums.storedSum = .exact c := ArrearsEntry.storedSum_of_sums hvals hc
    simp only [hpos, if_true, htotal]
    refine ⟨_, rfl, ?_, ⟨c, rfl, hc⟩, hold⟩
    intro i
    obtain ⟨v, hv, hval⟩ := hvals i
    refine ⟨v, ?_, hval⟩
    rw [Buckets.get_map, hv]
    rfl

/-- The installments of the live schedule, as they are read. -/
def liveRows (l : Loan) : List LiveInstallment :=
  (byDueText (·.dueDate) (·.installment) l.schedule).map (·.row)

theorem mem_byDueText {α : Type} {dueDate : α → Date} {installment : α → Nat} {entries : List α}
    {e : α} : e ∈ byDueText dueDate installment entries ↔ e ∈ entries :=
  (List.mergeSort_perm _ _).mem_iff

/-- A single loan is aged by what it owes, in whatever order its installments are read, as long as
    no bucket of it leaves the range of decimals. -/
theorem exists_ofLive_of_lt (hconsumed : ∀ e ∈ l.schedule, ∀ i, (e.consumed.get i).isExact)
    (hlt : ∀ i, Outstanding.sum (l.overdueLive today grace) i < Decimal.coeffLimit) {cutoff : Date}
    (hcutoff : today.cutoff grace = .ok cutoff) :
    ∃ t, Totals.ofLive l.liveRows cutoff = .ok t ∧ t.Counts (l.overdueLive today grace) := by
  let entries := (byDueText (·.dueDate) (·.installment) l.schedule).filter (·.isOverdue today grace)
  have hexact : ∀ e ∈ entries, ∀ i, (e.consumed.get i).isExact := fun e he =>
    hconsumed e (mem_byDueText.1 (List.mem_of_mem_filter he))
  have hrows : (l.liveRows.filter fun r => r.dueDate.before cutoff && !r.completed) =
      entries.map (·.row) := by
    rw [liveRows, List.filter_map]
    refine congrArg (List.map _) (List.filter_congr fun e _ => ?_)
    show (decide (e.dueDate.number < cutoff.number) && !e.fullyCompleted) = e.isOverdue today grace
    rw [Date.number_of_cutoff hcutoff, LiveEntry.isOverdue, Bool.and_comm]
  have hleft : (entries.map (·.row)).map (·.left) = entries.map (·.owed) := by
    rw [List.map_map]
    exact List.map_congr_left fun e he => (LiveEntry.exists_monus (hexact e he)).1
  have hperm : (entries.map (·.owed)).Perm (l.overdueLive today grace) :=
    ((List.mergeSort_perm _ _).filter _).map _
  have hread : ∀ r ∈ entries.map (·.row), ∃ b, Amounts.monus r.due r.consumed = .ok b ∧
      ∀ i, (b.get i).IsCents (r.left.cents.get i) := by
    intro r hr
    obtain ⟨e, he, rfl⟩ := List.mem_map.1 hr
    obtain ⟨howed, hmonus⟩ := LiveEntry.exists_monus (hexact e he)
    rw [howed]
    exact hmonus
  have hlimit (i : Bucket) :
      Outstanding.sum ([] ++ (entries.map (·.row)).map (·.left)) i < Decimal.coeffLimit := by
    rw [List.nil_append, hleft, Outstanding.sum_perm hperm]
    exact hlt i
  obtain ⟨t, ht, hcounts⟩ := Totals.zero_counts.foldlM (fun r _ => rfl) hread hlimit
  refine ⟨t, ?_, ?_⟩
  · rw [Totals.ofLive, hrows]
    exact ht
  · rw [List.nil_append, hleft] at hcounts
    exact hcounts.perm hperm

theorem exists_ofLive (hfits : l.FitsLive today grace) {cutoff : Date}
    (hcutoff : today.cutoff grace = .ok cutoff) :
    ∃ t, Totals.ofLive l.liveRows cutoff = .ok t ∧ t.Counts (l.overdueLive today grace) := by
  refine exists_ofLive_of_lt hfits.consumed (fun i => ?_) hcutoff
  exact Nat.lt_trans (hfits.sum_lt i) (by decide)

end Loan

namespace Book

variable {b : Book} {today : Date} {id : LoanId} {l : Loan} {p : Product}

/-- The bulk insert leaves what a loan owes that it ages. -/
theorem exists_bulkEntryOf (hp : b.products.find? l.product = some p) (haged : l.isAgedInBulk p)
    (hfits : l.FitsLive today (l.graceOf p)) (htoday : today.HasFourDigitYear)
    (hyears : ∀ e ∈ l.schedule, e.dueDate.HasFourDigitYear) :
    ∃ e, b.bulkEntryOf today l = .ok e ∧
      Outstanding.Leaves (l.overdueLive today (l.graceOf p)) e := by
  obtain ⟨e, hentry, hleaves⟩ := Loan.exists_bulkEntry? hfits htoday hyears
  refine ⟨e, ?_, hleaves⟩
  unfold bulkEntryOf
  rw [hp]
  simp only [haged, if_true, hentry, bind, Except.bind]
  cases e with
  | none => rfl
  | some e =>
    have hcheck : e.check = .ok () := ArrearsEntry.Records.check hleaves
    simp only [hcheck]
    rfl

theorem liveInstallments_eq_ok (hl : b.loans.find? id = some l)
    (hconsumed : ∀ e ∈ l.schedule, ∀ i, (e.consumed.get i).isExact) :
    b.liveInstallments id = .ok l.liveRows := by
  have hmapM (entries : List LiveEntry) (h : ∀ e ∈ entries, e.read = .ok e.row) :
      entries.mapM LiveEntry.read = .ok (entries.map (·.row)) := by
    induction entries with
    | nil => rfl
    | cons e entries ih =>
      rw [List.mapM_cons, h e List.mem_cons_self,
        ih fun e' he' => h e' (List.mem_cons_of_mem _ he')]
      rfl
  unfold liveInstallments
  rw [hl]
  exact hmapM _ fun e he => LiveEntry.read_eq_ok (hconsumed e (Loan.mem_byDueText.1 he))

/-- An active loan that does not replay a schedule is written by its live totals. -/
theorem writeOf_of_isAgedInBulk (hl : b.loans.find? id = some l)
    (hp : b.products.find? l.product = some p) (haged : l.isAgedInBulk p)
    (hfits : l.FitsLive today (l.graceOf p)) :
    b.writeOf id today .auto = do
      let cutoff ← today.cutoff (l.graceOf p)
      return .ofTotals id (← Totals.ofLive l.liveRows cutoff) := by
  rw [Loan.isAgedInBulk_eq, Bool.and_eq_true, Bool.not_eq_true'] at haged
  obtain ⟨hactive, hlive⟩ := haged
  have hmode : ¬ (AgingMode.auto = .auto ∧ (l.activeTerms id p).replaysPlanned) := by
    rintro ⟨-, hreplays⟩
    exact Bool.false_ne_true (hlive.symm.trans hreplays)
  rw [writeOf_of_isActive hl hp hactive, activeWriteOf_live hmode]
  unfold liveTotals
  rw [show (l.activeTerms id p).loan = id from rfl, liveInstallments_eq_ok hl hfits.consumed,
    show (l.activeTerms id p).grace = l.graceOf p from rfl]
  cases today.cutoff (l.graceOf p) with
  | error c => rfl
  | ok cutoff => cases Totals.ofLive l.liveRows cutoff <;> rfl

/-- With a cutoff, the write of a loan that is aged in bulk is that of what it owes. -/
theorem exists_writeOf (hl : b.loans.find? id = some l)
    (hp : b.products.find? l.product = some p) (haged : l.isAgedInBulk p)
    (hfits : l.FitsLive today (l.graceOf p)) {cutoff : Date}
    (hcutoff : today.cutoff (l.graceOf p) = .ok cutoff) :
    ∃ t, b.writeOf id today .auto = .ok (.ofTotals id t) ∧
      t.Counts (l.overdueLive today (l.graceOf p)) := by
  obtain ⟨t, ht, hcounts⟩ := Loan.exists_ofLive hfits hcutoff
  refine ⟨t, ?_, hcounts⟩
  rw [writeOf_of_isAgedInBulk hl hp haged hfits, hcutoff]
  simp only [liftM, monadLift, MonadLift.monadLift, bind, Except.bind, ht]
  rfl

end Book

end LoanArrears
