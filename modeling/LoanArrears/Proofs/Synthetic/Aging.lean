-- SUMMARY: Every loan of a synthetic book can be aged on the business date that the book was made for, so a run of the job over it skips none.
import LoanArrears.Proofs.Book.Overflow
import LoanArrears.Proofs.Book.Owing
import LoanArrears.Proofs.Job.Run
import LoanArrears.Proofs.Synthetic.Book

/-!
# Aging synthetic books

What is kept of a synthetic loan is exact, and small: each of at most twelve installments owes no
more than `maxDue` in a bucket. So its overdue sums are in range on either schedule. A planned
schedule is valid, since its installments are due one after the other and nothing is due that is
negative. As the business date leaves room before it for the grace of a product, there is always a
cutoff, and the entry of the loan can be computed.
-/

namespace LoanArrears

open Synthetic

/-! ## Exact columns -/

theorem Stored.add_zero (a : Cents) : Stored.add (.exact a) (.exact .zero) = .exact a :=
  Stored.add_exact_of_val (Int.add_zero _)

theorem Stored.sub_zero (a : Cents) : Stored.sub (.exact a) (.exact .zero) = .exact a := by
  refine Stored.sub_exact ?_
  rw [show a.val - Cents.zero.val = a.val from Int.sub_zero _]
  exact Cents.ofInt?_val a

theorem get_exactly_zero (i : Bucket) : (exactly (.all .zero)).get i = .exact .zero := by
  rw [exactly, Buckets.get_map, Buckets.get_all]

namespace LiveEntry.IsSynthetic

variable {e : LiveEntry} {disbursed : Date} {rescheduled : Bool}

/-- Nothing is consumed but what was completed. -/
theorem consumed_eq (h : e.IsSynthetic disbursed rescheduled) (i : Bucket) :
    e.consumed.get i = e.completed.get i := by
  obtain ⟨c, hc⟩ := Stored.exists_of_isExact (h.isExact i)
  rw [LiveEntry.consumed, Buckets.get_zipWith, Buckets.get_zipWith, h.waived, h.writtenOff,
    get_exactly_zero, hc, Stored.add_zero, Stored.add_zero]

theorem isExact_consumed (h : e.IsSynthetic disbursed rescheduled) (i : Bucket) :
    (e.consumed.get i).isExact := by
  rw [h.consumed_eq]
  exact h.isExact i

theorem isExact_outstanding (h : e.IsSynthetic disbursed rescheduled) (i : Bucket) :
    (e.outstanding.get i).isExact := by
  obtain ⟨c, hc⟩ := Stored.exists_of_isExact (h.isExact i)
  have hnonneg := h.completed_nonneg i
  have hle := h.completed_le i
  rw [hc] at hnonneg hle
  have hrange : Cents.InRange ((e.due.get i).val - c.val) := by
    have hhi := (e.due.get i).lt_hi
    have hlo := (e.due.get i).lo_le
    simp only [Stored.val] at hnonneg hle
    unfold Cents.InRange Bound.int64
    omega
  obtain ⟨left, hleft⟩ := Cents.exists_of_inRange hrange
  rw [LiveEntry.outstanding, Buckets.get_zipWith, Buckets.get_zipWith, Buckets.get_zipWith,
    h.waived, h.writtenOff, get_exactly_zero, hc, exactly, Buckets.get_map, Stored.sub_exact hleft,
    Stored.sub_zero, Stored.sub_zero]
  rfl

theorem owed_le (h : e.IsSynthetic disbursed rescheduled) (i : Bucket) :
    e.owed.cents.get i ≤ maxDue := by
  have hdue := h.due_le i
  have hnonneg := h.completed_nonneg i
  rw [LiveEntry.owed, Buckets.get_tabulate, h.consumed_eq]
  omega

end LiveEntry.IsSynthetic

/-- What a waterfall leaves of an installment is at most what was due. -/
theorem Waterfall.left_le {schedule : List PlannedInstallment} {pool : Bucket → Nat}
    {allocated : List Coverage} (h : Waterfall schedule pool allocated) {bound : Nat}
    (hdues : ∀ s ∈ schedule, ∀ i, s.due.cents i ≤ bound) :
    ∀ a ∈ allocated, ∀ i, a.left.cents.get i ≤ bound := by
  induction h with
  | nil => exact List.forall_mem_nil _
  | cons takes _ ih =>
    rw [List.forall_mem_cons] at hdues ⊢
    refine ⟨fun i => ?_, ih hdues.2⟩
    rw [takes.get_left]
    exact (Nat.sub_le _ _).trans (hdues.1 i)

/-- Twelve installments that owe no more than a synthetic one can owe stay in range. -/
theorem Outstanding.total_lt {os : List Outstanding} (hlength : os.length ≤ 12)
    (hcents : ∀ o ∈ os, ∀ i, o.cents.get i ≤ maxDue) : Outstanding.total os < Bound.int64 := by
  have hsum (i : Bucket) : Outstanding.sum os i ≤ 12 * maxDue :=
    (Outstanding.sum_le_of_forall_le fun o ho => hcents o ho i).trans
      (Nat.mul_le_mul_right maxDue hlength)
  have hp := hsum .principal
  have hi := hsum .interest
  have hf := hsum .fee
  have hl := hsum .penalty
  unfold maxDue at hp hi hf hl
  unfold Outstanding.total Bound.int64
  omega

/-! ## What a synthetic loan owes -/

namespace Loan.IsSynthetic

variable {l : Loan} {today disbursed : Date} {rescheduled : Bool}

theorem hasNumberedSchedule (h : l.IsSynthetic today disbursed rescheduled) :
    l.HasNumberedSchedule where
  distinct := h.nodup_numbers
  lt n hn := Nat.lt_of_le_of_lt (h.number_range hn).2 (by decide)

theorem installment_range (h : l.IsSynthetic today disbursed rescheduled) {e : HistoryEntry}
    (he : e ∈ l.history) : 1 ≤ e.installment ∧ e.installment ≤ 12 := by
  have hmem : e.installment ∈ l.history.map (·.installment) := List.mem_map_of_mem he
  rw [h.history_numbers] at hmem
  split at hmem
  · exact h.number_range hmem
  · cases hmem

theorem hasNumberedHistory (h : l.IsSynthetic today disbursed rescheduled) :
    l.HasNumberedHistory where
  distinct := (List.pairwise_map.1 h.nodup_history).imp fun hne hsame => hne hsame.2
  lt e he := Nat.lt_of_le_of_lt (h.installment_range he).2 (by decide)

theorem length_history_le (h : l.IsSynthetic today disbursed rescheduled) :
    l.history.length ≤ 12 := by
  rw [← List.length_map (·.installment), h.history_numbers]
  split
  · rw [Loan.numbers, List.length_map]
    exact h.le_twelve
  · exact Nat.zero_le _

theorem years_live (h : l.IsSynthetic today disbursed rescheduled) (htoday : today.HasRoom) :
    ∀ e ∈ l.schedule, e.dueDate.HasFourDigitYear := by
  intro e he
  have hnumber := (h.number_range (List.mem_map_of_mem he)).2
  have hdue := (h.live e he).dueDate
  have hearly := h.early
  have hlate := h.late
  unfold rescheduleDays periodDays at hdue
  refine htoday.hasFourDigitYear ?_ ?_ <;> rw [hdue] <;> split <;> omega

theorem years_planned (h : l.IsSynthetic today disbursed rescheduled) (htoday : today.HasRoom) :
    ∀ e ∈ l.history, e.dueDate.HasFourDigitYear := by
  intro e he
  have hnumber := (h.installment_range he).2
  have hdue := (h.planned e he).dueDate
  have hearly := h.early
  have hlate := h.late
  unfold periodDays at hdue
  exact htoday.hasFourDigitYear (by omega) (by omega)

/-- The lifetime totals are what the installments completed, and not negative. -/
theorem exists_consumed (h : l.IsSynthetic today disbursed rescheduled) :
    ∃ c : Buckets Cents, l.consumed = exactly c ∧ ∀ i, 0 ≤ (c.get i).val := by
  choose c hc using fun i => Stored.exists_of_isExact (h.repaid i).1
  -- Nothing was waived or written off; what is consumed of principal leaves waivers out.
  have hall (i : Bucket) : Stored.add (Stored.add (l.repaid.get i) (.exact (l.waived.get i)))
      (.exact (l.writtenOff.get i)) = .exact (c i) := by
    rw [h.waived, h.writtenOff, Buckets.get_all, hc, Stored.add_zero, Stored.add_zero]
  have hprincipal : Stored.add (l.repaid.get .principal) (.exact (l.writtenOff.get .principal)) =
      .exact (c .principal) := by
    rw [h.writtenOff, Buckets.get_all, hc, Stored.add_zero]
  refine ⟨.tabulate c, Buckets.ext_get fun i => ?_, fun i => ?_⟩
  · rw [exactly, Buckets.get_map, Buckets.get_tabulate]
    cases i with
    | principal => exact hprincipal
    | interest => exact hall .interest
    | fee => exact hall .fee
    | penalty => exact hall .penalty
  · have hsum := (h.repaid i).2
    rw [hc] at hsum
    rw [Buckets.get_tabulate, show (c i).val = l.completedSum i from hsum]
    refine List.sum_nonneg fun v hv => ?_
    obtain ⟨e, he, rfl⟩ := List.mem_map.1 hv
    exact (h.live e he).completed_nonneg i

/-- The planned schedule is valid. -/
theorem validateSchedule_plannedRows (h : l.IsSynthetic today disbursed rescheduled)
    (htoday : today.HasRoom) (hne : l.history ≠ []) (id : LoanId) :
    validateSchedule id l.plannedRows = .ok () := by
  refine validateSchedule_eq_ok (plannedRows_isEmpty hne) ?_ fun s hs => ?_
  · have hsublist : l.plannedEntries.Sublist l.history := List.filter_sublist
    have hbefore : (byDueText (·.dueDate) (·.installment) l.plannedEntries).Pairwise
        (DueBefore HistoryEntry.dueDate HistoryEntry.installment) :=
      dueBefore_byDueText (h.nodup_history.sublist (hsublist.map _))
        fun e he => h.years_planned htoday e (hsublist.subset he)
    refine List.pairwise_map.2 (hbefore.imp fun hdue => ?_)
    rcases hdue with hlt | ⟨heq, -⟩
    · exact Int.le_of_lt hlt
    · exact Int.le_of_eq (congrArg Date.number heq)
  · obtain ⟨e, he, rfl⟩ := mem_plannedRows hs
    refine Amounts.anyNegative_ofCents_eq_false_iff.2 fun i => ?_
    exact (h.planned e (List.mem_of_mem_filter he)).due_nonneg i

/-- What the loan owes is known, on either schedule, and in range. -/
theorem exists_owes (h : l.IsSynthetic today disbursed rescheduled) (htoday : today.HasRoom)
    (id : LoanId) (p : Product) :
    ∃ os, l.Owes id p .auto os ∧ os.length ≤ 12 ∧ ∀ o ∈ os, ∀ i, o.cents.get i ≤ maxDue := by
  by_cases hreplays : l.replays p
  -- On the planned schedule, what the allocation leaves of an installment is part of its due.
  · obtain ⟨c, hconsumed, hnonneg⟩ := h.exists_consumed
    have hvalid := h.validateSchedule_plannedRows htoday
      (Book.history_ne_nil_of_replays hreplays) id
    have hlifetime : Consumption.validate ⟨id, Amounts.ofCents c⟩ = .ok () := by
      rw [Consumption.validate, Amounts.anyNegative_ofCents_eq_false_iff.2 hnonneg]
      rfl
    obtain ⟨allocated, hallocate, hflows, -⟩ :=
      Book.exists_ofPlanned h.hasNumberedHistory hvalid hlifetime
    refine ⟨_, .planned ⟨rfl, hreplays⟩ hvalid hconsumed hlifetime hallocate hflows, ?_, ?_⟩
    · have hlength := congrArg List.length hflows.map_eq
      rw [List.length_map, List.length_map, length_plannedRows] at hlength
      rw [List.length_map]
      calc (allocated.filter (!·.complete)).length
        _ ≤ allocated.length := List.length_filter_le _ _
        _ = l.plannedEntries.length := hlength
        _ ≤ l.history.length := List.length_filter_le _ _
        _ ≤ 12 := h.length_history_le
    · intro o ho
      obtain ⟨a, ha, rfl⟩ := List.mem_map.1 ho
      refine hflows.left_le (fun s hs i => ?_) a (List.mem_of_mem_filter ha)
      obtain ⟨e, he, rfl⟩ := mem_plannedRows hs
      have hdue := (h.planned e (List.mem_of_mem_filter he)).due_le i
      rw [Amounts.cents, HistoryEntry.read, Amounts.get_ofCents]
      exact Int.toNat_le.2 hdue
  · refine ⟨_, .live (fun hmode => hreplays hmode.2) fun e he => (h.live e he).isExact_consumed,
      ?_, ?_⟩
    · rw [List.length_map]
      exact (List.length_filter_le _ _).trans h.le_twelve
    · intro o ho
      obtain ⟨e, he, rfl⟩ := List.mem_map.1 ho
      exact (h.live e (List.mem_of_mem_filter he)).owed_le

/-- The loan has an earlier schedule exactly if it was rescheduled. -/
theorem history_ne_nil_iff (h : l.IsSynthetic today disbursed rescheduled) :
    l.history ≠ [] ↔ rescheduled := by
  have hthree := h.three_le
  have hlength := congrArg List.length h.history_numbers
  rw [List.length_map] at hlength
  rw [← List.length_pos_iff, hlength]
  cases rescheduled with
  | true =>
    have hnumbers : l.numbers.length = l.schedule.length := List.length_map _
    rw [if_pos rfl, hnumbers]
    exact iff_of_true (by omega) rfl
  | false => simp

/-- Installments of the earlier schedule are due one after the other. -/
theorem ascending_history (h : l.IsSynthetic today disbursed rescheduled) :
    l.history.Pairwise fun e e' => e.dueDate.number < e'.dueDate.number := by
  have hnumbers : (l.history.map (·.installment)).Pairwise (· < ·) := by
    rw [h.history_numbers, h.numbers]
    split
    · exact List.pairwise_map.2 (List.pairwise_lt_range.imp Nat.succ_lt_succ)
    · exact .nil
  refine (List.pairwise_map.1 hnumbers).imp_of_mem fun he he' hlt => ?_
  rw [(h.planned _ he).dueDate, (h.planned _ he').dueDate]
  unfold periodDays
  omega

end Loan.IsSynthetic

/-! ## Aging -/

theorem Date.HasRoom.exists_cutoff {today : Date} (h : today.HasRoom) {grace : Nat}
    (hgrace : grace ≤ 5) : ∃ cutoff, today.cutoff grace = .ok cutoff := by
  have hfirst : Date.first ≤ Date.firstFourDigit := by decide
  have hbefore := h.1
  obtain ⟨cutoff, hcutoff, -⟩ := @Date.exists_subDays? today grace (by omega)
  refine ⟨cutoff, ?_⟩
  rw [Date.cutoff, Date.cutoff?, hcutoff]
  rfl

/-- A loan that is not active loses its row. -/
theorem Book.writeOf_of_not_isActive {b : Book} {id : LoanId} {l : Loan} {p : Product}
    {status : Status} (hl : b.loans.find? id = some l)
    (hp : b.products.find? l.product = some p) (hstatus : l.status = status.code)
    (hactive : ¬ status.isActive) (today : Date) (mode : AgingMode) :
    b.writeOf id today mode = .ok (.delete id) := by
  have hpair : b.loanWithProduct? id = some (l, p) := by
    unfold loanWithProduct?
    rw [hl]
    simp only [bind, Option.bind, hp]
    rfl
  have hterms : b.terms id = .ok ⟨id, status, l.product, p.byPlannedSchedule, l.graceOf p,
      !l.history.isEmpty⟩ := by
    unfold Book.terms
    rw [hpair]
    simp only [hstatus, Status.ofCode?_code]
  rw [writeOf_of_terms hterms, if_pos (by simpa using hactive)]

namespace Book.IsSynthetic

variable {b : Book} {count : Nat} {today : Date} {id : LoanId} {l : Loan}

/-- The product of a loan is there, and has not more than five days of grace. -/
theorem exists_product (h : b.IsSynthetic count today) (hl : b.loans.find? id = some l) :
    ∃ p, b.products.find? l.product = some p ∧ l.graceOf p ≤ 5 := by
  obtain ⟨disbursed, rescheduled, hsynthetic⟩ := h.loans id l hl
  obtain ⟨r, hr, hproduct⟩ := hsynthetic.product
  have hgrace : ∀ r ∈ Synthetic.products, r.grace ≤ 5 := by decide
  refine ⟨⟨r.name, r.byPlannedSchedule, r.grace⟩, ?_, ?_⟩
  · rw [h.products, hproduct]
    exact find?_products r hr
  · rw [Loan.graceOf, hsynthetic.grace]
    exact hgrace r hr

/-- The write of every loan is computed, and its entry is accepted. -/
theorem exists_entryLeft (h : b.IsSynthetic count today) (htoday : today.HasRoom)
    (hl : b.loans.find? id = some l) :
    ∃ w e, b.writeOf id today .auto = .ok w ∧ w.entryLeft = .ok e := by
  obtain ⟨p, hp, hgrace⟩ := h.exists_product hl
  obtain ⟨disbursed, rescheduled, hsynthetic⟩ := h.loans id l hl
  rcases hsynthetic.status with hstatus | hstatus
  · have hactive : l.isActive := decide_eq_true hstatus
    obtain ⟨cutoff, hcutoff⟩ := htoday.exists_cutoff hgrace
    obtain ⟨os, howes, hlength, hcents⟩ := hsynthetic.exists_owes htoday id p
    obtain ⟨t, hwrite, hcounts⟩ := exists_writeOf_of_owes hl hp hactive
      hsynthetic.hasNumberedSchedule hsynthetic.hasNumberedHistory howes hcutoff
    have htotal : Outstanding.total (Outstanding.dueBefore cutoff os) < Bound.int64 :=
      Outstanding.total_lt ((List.length_filter_le _ _).trans hlength)
        fun o ho => hcents o (List.mem_of_mem_filter ho)
    obtain ⟨e, he, -⟩ := hcounts.exists_leaves htotal id
    exact ⟨_, e, hwrite, he⟩
  · exact ⟨_, none, writeOf_of_not_isActive hl hp hstatus (by decide) today .auto, rfl⟩

/-- The bulk insert can age all loans that it is to age. -/
theorem bulkAccepts (h : b.IsSynthetic count today) (htoday : today.HasRoom) :
    b.BulkAccepts today := by
  intro id l hl
  obtain ⟨disbursed, rescheduled, hsynthetic⟩ := h.loans id l hl
  by_cases haged : ∃ p, b.products.find? l.product = some p ∧ l.isAgedInBulk p
  · obtain ⟨p, hp, haged⟩ := haged
    have hfits : l.FitsLive today (l.graceOf p) := by
      refine ⟨fun e he => (hsynthetic.live e he).isExact_consumed,
        fun e he _ => (hsynthetic.live e he).isExact_outstanding, ?_⟩
      refine Outstanding.total_lt ?_ fun o ho => ?_
      · rw [Loan.overdueLive, List.length_map]
        exact (List.length_filter_le _ _).trans hsynthetic.le_twelve
      · obtain ⟨e, he, rfl⟩ := List.mem_map.1 ho
        exact (hsynthetic.live e (List.mem_of_mem_filter he)).owed_le
    have hyear : today.HasFourDigitYear := htoday.hasFourDigitYear (by omega) (by omega)
    obtain ⟨e, he, -⟩ := exists_bulkEntryOf hp haged hfits hyear (hsynthetic.years_live htoday)
    exact ⟨e, he⟩
  · exact ⟨none, bulkEntryOf_of_not_isAgedInBulk fun p hp haged' => haged ⟨p, hp, haged'⟩⟩

/-- A run over the book skips no loan. -/
theorem exists_run (h : b.IsSynthetic count today) (htoday : today.HasRoom)
    (hcount : count < Bound.int64) {config : JobParameters} {job : Job Store} {t : ArrearsTable}
    (hjob : Job.new config today ⟨some ⟨b, t⟩, false⟩ = .ok job) :
    ∃ report job', (Job.run : Act (Job Store) RunReport).exec job = (.ok report, job') ∧
      report.skipped = [] ∧ report.failed = [] := by
  have hids : ∀ id l, b.loans.find? id = some l → id < Bound.int64 := by
    intro id l hl
    have hle := ((h.ids id).1 (by rw [Table.contains, hl]; rfl)).2
    omega
  have hentry : ∀ id ∈ b.streamed today, ∃ e, b.entryOf id today = .ok e := by
    intro id hid
    obtain ⟨l, hl, -⟩ := mem_candidateIds_iff.1 (List.mem_of_mem_filter hid)
    obtain ⟨w, e, hw, he⟩ := h.exists_entryLeft htoday hl
    exact ⟨e, (entryOf_of_writeOf hw).trans he⟩
  have hdata : b.FailsByData today (b.streamed today) := by
    intro id hid f hf
    obtain ⟨e, he⟩ := hentry id hid
    rw [he] at hf
    cases hf
  obtain ⟨-, -, hjob⟩ := exists_of_bind_eq_ok hjob
  cases hjob
  obtain ⟨report, t', hexec, hfailed, hskipped, -⟩ :=
    Job.exists_run hids (h.bulkAccepts htoday) hdata t
  refine ⟨report, _, hexec, List.eq_nil_iff_forall_not_mem.2 fun skipped hmem => ?_, hfailed⟩
  obtain ⟨hstreamed, herror⟩ := (hskipped skipped).1 hmem
  obtain ⟨e, he⟩ := hentry _ hstreamed
  rw [he] at herror
  cases herror

end Book.IsSynthetic

/-! ## Filling -/

/-- For every seed, number of loans and business date with years around it, filling an empty store
    makes a book of synthetic loans under the ids from one on, with the counts that are returned. A
    loan has an earlier schedule, in the order of due dates, exactly if it was rescheduled. The
    write of every loan is computed, and a run of the job skips none. -/
theorem fill_makes_consistent_book {count : Nat} (hcount : count < Bound.int64) (seed : Nat)
    {today : Date} (hfirst : 2 ≤ today.civil.year) (hlast : today.civil.year ≤ 9997) :
    ∃ (b : Book) (s : Store), s = ⟨some ⟨b, Table.empty⟩, false⟩ ∧
      (fill count seed today : Act Store Made).exec Store.new = (.ok b.made, s) ∧
      b.made.loans = count ∧ (∀ id, b.loans.contains id ↔ 1 ≤ id ∧ id ≤ count) ∧
      (∀ p ∈ products, b.product? p.id = some p) ∧
      (∀ id l, b.loans.find? id = some l →
        (∃ disbursed rescheduled, l.IsSynthetic today disbursed rescheduled ∧
          (l.history ≠ [] ↔ rescheduled)) ∧
        l.history.Pairwise (fun e e' => e.dueDate.number < e'.dueDate.number) ∧
        ∃ w, (computeWrite id today .auto : Act Store ArrearsWrite).exec s = (.ok w, s)) ∧
      ∀ (config : JobParameters) (job : Job Store), Job.new config today s = .ok job →
        ∃ report job', (Job.run : Act (Job Store) RunReport).exec job = (.ok report, job') ∧
          report.skipped = [] ∧ report.failed = [] := by
  have htoday := Date.hasRoom_of_year hfirst hlast
  obtain ⟨b, hexec, hb⟩ := exists_fill htoday hcount seed
  refine ⟨b, _, rfl, hexec, hb.size, hb.ids, fun p hp => ?_, fun id l hl => ?_,
    fun config job hjob => hb.exists_run htoday hcount hjob⟩
  · rw [Book.product?, hb.products, find?_products p hp]
    rfl
  · obtain ⟨disbursed, rescheduled, hsynthetic⟩ := hb.loans id l hl
    obtain ⟨w, -, hw, -⟩ := hb.exists_entryLeft htoday hl
    have hreads := Store.HasBook.reads_computeWrite (s := ⟨some ⟨b, Table.empty⟩, false⟩)
      ⟨Table.empty, rfl⟩ id today .auto
    rw [hw] at hreads
    exact ⟨⟨disbursed, rescheduled, hsynthetic, hsynthetic.history_ne_nil_iff⟩,
      hsynthetic.ascending_history, w, hreads⟩

/-- Of two loans the first is rescheduled and the second closed. -/
theorem fill_makes_consistent_book_sample :
    ∃ (b : Book) (s : Store), (fill 2 48 Sample.today : Act Store Made).exec Store.new =
        (.ok ⟨2, 1, 1⟩, s) ∧ s = ⟨some ⟨b, Table.empty⟩, false⟩ ∧ b.made = ⟨2, 1, 1⟩ ∧
      (∃ l disbursed w, b.loans.find? 1 = some l ∧ l.status = Status.active.code ∧
        l.IsSynthetic Sample.today disbursed true ∧ l.history ≠ [] ∧
        (computeWrite 1 Sample.today .auto : Act Store ArrearsWrite).exec s = (.ok w, s)) ∧
      (∃ l disbursed w, b.loans.find? 2 = some l ∧ l.status = Status.closedObligationsMet.code ∧
        l.IsSynthetic Sample.today disbursed false ∧ (∀ e ∈ l.schedule, e.fullyCompleted) ∧
        (computeWrite 2 Sample.today .auto : Act Store ArrearsWrite).exec s = (.ok w, s)) ∧
      ∃ job report job', Job.new .small Sample.today s = .ok job ∧
        (Job.run : Act (Job Store) RunReport).exec job = (.ok report, job') ∧
        report.skipped = [] ∧ report.failed = [] := by
  obtain ⟨b, s, rfl, hexec, -, -, -, hloans, hrun⟩ := fill_makes_consistent_book
    (show 2 < Bound.int64 by decide) 48 (show 2 ≤ Sample.today.civil.year by decide) (by decide)
  have hmade : b.made = ⟨2, 1, 1⟩ := by
    have hfirst : ((fill 2 48 Sample.today : Act Store Made).exec Store.new).1 =
        .ok ⟨2, 1, 1⟩ := by decide +kernel
    rw [hexec] at hfirst
    exact Except.ok.inj hfirst
  have hfind (id : LoanId) : ((fill 2 48 Sample.today : Act Store Made).exec
      Store.new).2.tables.bind (·.book.loans.find? id) = b.loans.find? id := by
    rw [hexec]
    rfl
  have hloan {id : LoanId} {status : Int} {rescheduled : Bool}
      (h : (b.loans.find? id).map (fun l => (l.status, !l.history.isEmpty)) =
        some (status, rescheduled)) :
      ∃ l disbursed w, b.loans.find? id = some l ∧ l.status = status ∧
        l.IsSynthetic Sample.today disbursed rescheduled ∧
        (computeWrite id Sample.today .auto : Act Store ArrearsWrite).exec
          ⟨some ⟨b, Table.empty⟩, false⟩ = (.ok w, ⟨some ⟨b, Table.empty⟩, false⟩) := by
    obtain ⟨l, hl, hfacts⟩ := Option.map_eq_some_iff.1 h
    cases hfacts
    obtain ⟨⟨disbursed, rescheduled, hsynthetic, hkept⟩, -, w, hw⟩ := hloans id l hl
    have hhistory : (!l.history.isEmpty) = rescheduled := by
      rw [Bool.eq_iff_iff, ← hkept]
      simp
    exact ⟨l, disbursed, w, hl, rfl, hhistory ▸ hsynthetic, hw⟩
  obtain ⟨l₁, disbursed₁, w₁, hl₁, hactive, hsynthetic₁, hw₁⟩ :=
    @hloan 1 Status.active.code true (by rw [← hfind]; decide +kernel)
  obtain ⟨l₂, disbursed₂, w₂, hl₂, hclosed, hsynthetic₂, hw₂⟩ :=
    @hloan 2 Status.closedObligationsMet.code false (by rw [← hfind]; decide +kernel)
  obtain ⟨report, job', hreport⟩ := hrun .small _ rfl
  exact ⟨b, _, hmade ▸ hexec, rfl, hmade,
    ⟨l₁, disbursed₁, w₁, hl₁, hactive, hsynthetic₁, hsynthetic₁.history_ne_nil_iff.2 rfl, hw₁⟩,
    ⟨l₂, disbursed₂, w₂, hl₂, hclosed, hsynthetic₂, hsynthetic₂.closed hclosed, hw₂⟩,
    _, report, job', rfl, hreport⟩

end LoanArrears
