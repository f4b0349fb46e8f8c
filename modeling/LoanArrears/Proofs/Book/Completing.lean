-- SUMMARY: When completed installments are paid up: a repayment that covers an installment marks it for good, so the flag hides money exactly when later ones take back what covered it.
import LoanArrears.Proofs.Book.Hiding
import LoanArrears.Proofs.Book.Repaying

/-!
# Completing installments

A repayment marks its installment as completed when every bucket is covered then, and nothing takes
the mark away. Over a sequence of repayments the mark therefore says that the amounts covered the
due at some time, while what is owed depends on all of them. The two agree as long as an
installment that was covered still is, which only negative amounts can change.
-/

namespace LoanArrears

/-- What the amounts add up to in a bucket. -/
def paidSum (amounts : List (Buckets Cents)) (i : Bucket) : Int :=
  (amounts.map fun a => (a.get i).val).sum

theorem paidSum_concat (amounts : List (Buckets Cents)) (amount : Buckets Cents) (i : Bucket) :
    paidSum (amounts ++ [amount]) i = paidSum amounts i + (amount.get i).val := by
  simp [paidSum]

theorem paidSum_nonneg {amounts : List (Buckets Cents)} {i : Bucket}
    (h : ∀ a ∈ amounts, 0 ≤ (a.get i).val) : 0 ≤ paidSum amounts i := by
  refine List.sum_nonneg fun v hv => ?_
  obtain ⟨a, ha, rfl⟩ := List.mem_map.1 hv
  exact h a ha

/-- Amounts that are not negative add up to no less than some of them. -/
theorem paidSum_mono {posted amounts : List (Buckets Cents)} (hposted : posted <+: amounts)
    {i : Bucket} (h : ∀ a ∈ amounts, 0 ≤ (a.get i).val) : paidSum posted i ≤ paidSum amounts i := by
  obtain ⟨later, rfl⟩ := hposted
  have hlater := paidSum_nonneg fun a ha => h a (List.mem_append_right _ ha)
  simp only [paidSum, List.map_append, List.sum_append] at hlater ⊢
  omega

/-! ## One installment -/

namespace LiveEntry

/-- The installment after amounts posted one after the other. -/
def repayAll (e : LiveEntry) (amounts : List (Buckets Cents)) : LiveEntry :=
  amounts.foldl repay e

theorem repayAll_concat (e : LiveEntry) (amounts : List (Buckets Cents))
    (amount : Buckets Cents) : e.repayAll (amounts ++ [amount]) = (e.repayAll amounts).repay amount := by
  simp [repayAll]

theorem repayAll_append (e : LiveEntry) (amounts others : List (Buckets Cents)) :
    e.repayAll (amounts ++ others) = (e.repayAll amounts).repayAll others :=
  List.foldl_append

theorem installment_repayAll (e : LiveEntry) (amounts : List (Buckets Cents)) :
    (e.repayAll amounts).installment = e.installment := by
  induction amounts using List.reverseRecOn with
  | nil => rfl
  | append_singleton amounts amount ih =>
    rw [repayAll_concat]
    exact ih

theorem due_repayAll (e : LiveEntry) (amounts : List (Buckets Cents)) :
    (e.repayAll amounts).due = e.due := by
  induction amounts using List.reverseRecOn with
  | nil => rfl
  | append_singleton amounts amount ih =>
    rw [repayAll_concat]
    exact ih

/-- The amounts together cover every bucket of the due. -/
def CoveredBy (e : LiveEntry) (amounts : List (Buckets Cents)) : Prop :=
  ∀ i, (e.due.get i).val ≤ paidSum amounts i

/-- Some of the amounts, from the first one on, cover the due. -/
def IsCoveredAtSomeTime (e : LiveEntry) (amounts : List (Buckets Cents)) : Prop :=
  ∃ posted, posted <+: amounts ∧ posted ≠ [] ∧ e.CoveredBy posted

theorem isCoveredAtSomeTime_concat {e : LiveEntry} {amounts : List (Buckets Cents)}
    {amount : Buckets Cents} :
    e.IsCoveredAtSomeTime (amounts ++ [amount]) ↔
      e.IsCoveredAtSomeTime amounts ∨ e.CoveredBy (amounts ++ [amount]) := by
  simp only [IsCoveredAtSomeTime, List.prefix_concat_iff]
  constructor
  · rintro ⟨posted, rfl | hposted, hne, hcovered⟩
    · exact .inr hcovered
    · exact .inl ⟨posted, hposted, hne, hcovered⟩
  · rintro (⟨posted, hposted, hne, hcovered⟩ | hcovered)
    · exact ⟨posted, .inr hposted, hne, hcovered⟩
    · exact ⟨_, .inl rfl, by simp, hcovered⟩

/-- What an amount in range adds to the column is its number. -/
theorem HasPaid.repay {e : LiveEntry} {paid : Bucket → Int} (h : e.HasPaid paid)
    {amount : Buckets Cents}
    (hrange : ∀ i, (Cents.ofInt? (paid i + (amount.get i).val)).isSome) :
    (e.repay amount).HasPaid fun i => paid i + (amount.get i).val where
  completed i := by
    obtain ⟨c, hc, hval⟩ := h.completed i
    obtain ⟨sum, hsum⟩ := Option.isSome_iff_exists.1 (hrange i)
    refine ⟨sum, ?_, Cents.val_of_ofInt? hsum⟩
    simp only [LiveEntry.repay, Book.credit, Buckets.get_zipWith, hc]
    rw [Stored.add_exact (hval ▸ hsum)]
    rfl
  waived := h.waived
  writtenOff := h.writtenOff

/-- After amounts whose sums stay in range an installment has paid their sum, and it is marked if
    it was before or was covered at some time. -/
theorem repayAll_spec {e : LiveEntry} (h : e.HasPaid fun _ => 0)
    {amounts : List (Buckets Cents)}
    (hrange : ∀ posted, posted <+: amounts → ∀ i, (Cents.ofInt? (paidSum posted i)).isSome) :
    (e.repayAll amounts).HasPaid (paidSum amounts) ∧
      ((e.repayAll amounts).fullyCompleted ↔
        e.fullyCompleted ∨ e.IsCoveredAtSomeTime amounts) := by
  induction amounts using List.reverseRecOn with
  | nil => exact ⟨h, by simp [repayAll, IsCoveredAtSomeTime]⟩
  | append_singleton amounts amount ih =>
    obtain ⟨hpaid, hmarked⟩ := ih fun posted hposted =>
      hrange posted (hposted.trans (List.prefix_append _ _))
    have hsum : paidSum (amounts ++ [amount]) = fun i => paidSum amounts i + (amount.get i).val :=
      funext (paidSum_concat amounts amount)
    have hnext : (e.repayAll (amounts ++ [amount])).HasPaid (paidSum (amounts ++ [amount])) := by
      rw [repayAll_concat, hsum]
      refine hpaid.repay fun i => ?_
      rw [← paidSum_concat]
      exact hrange _ List.prefix_rfl i
    refine ⟨hnext, ?_⟩
    have hcovered : (e.repayAll (amounts ++ [amount])).IsPaidUp ↔
        e.CoveredBy (amounts ++ [amount]) := by
      rw [hnext.isPaidUp_iff, due_repayAll]
      rfl
    rw [isCoveredAtSomeTime_concat, ← or_assoc, ← hmarked, ← hcovered, ← isCovered_iff,
      repayAll_concat]
    exact Bool.or_eq_true_iff

/-- The installment was put into the schedule as a row of which nothing was consumed yet. -/
def IsNew (e : LiveEntry) : Prop :=
  ∃ id installment dueDate due, (LiveRow.unpaid id installment dueDate due).prepare = .ok e

namespace IsNew

variable {e : LiveEntry}

theorem exists_due (h : e.IsNew) :
    ∃ due cents, Amounts.toCents due = .ok cents ∧
      e = ⟨e.installment, e.dueDate, cents, exactly (.all .zero), .all .zero, .all .zero,
        due.isZero⟩ := by
  have hzero : Amounts.toCents Amounts.zero = .ok (.all .zero) := rfl
  obtain ⟨id, installment, dueDate, due, h⟩ := h
  obtain ⟨cents, hcents, h⟩ := exists_of_bind_eq_ok h
  simp only [LiveRow.unpaid, hzero, bind, Except.bind] at h
  cases h
  exact ⟨due, cents, hcents, rfl⟩

theorem hasPaid (h : e.IsNew) : e.HasPaid fun _ => 0 := by
  obtain ⟨due, cents, -, he⟩ := h.exists_due
  rw [he]
  refine ⟨fun i => ⟨.zero, ?_, rfl⟩, rfl, rfl⟩
  rw [exactly, Buckets.get_map, Buckets.get_all]

/-- A new installment is marked when nothing is due. -/
theorem val_due (h : e.IsNew) (hmarked : e.fullyCompleted) (i : Bucket) :
    (e.due.get i).val = 0 := by
  obtain ⟨due, cents, hcents, he⟩ := h.exists_due
  rw [he] at hmarked ⊢
  have hdue : ∀ a ∈ due.toList, a.isZero := List.all_eq_true.1 hmarked
  exact Decimal.val_eq_zero_of_toCents (Buckets.mapM_eq_ok_iff.1 hcents i)
    (Buckets.forall_mem_toList.1 hdue i)

end IsNew

end LiveEntry

/-! ## Sequences of repayments -/

/-- A call that posts a repayment. -/
structure Repayment where
  loan : LoanId
  installment : Nat
  amount : Amounts

namespace Repayment

def write (r : Repayment) : LoanWrite :=
  .repay r.loan r.installment r.amount

/-- The amounts in cents that the calls post to an installment of a loan; calls with an amount that
    does not fit fail. -/
def postedTo (id : LoanId) (installment : Nat) (rs : List Repayment) : List (Buckets Cents) :=
  rs.filterMap fun r =>
    if r.loan = id ∧ r.installment = installment then (Amounts.toCents r.amount).toOption else none

theorem postedTo_cons (id : LoanId) (installment : Nat) (r : Repayment) (rs : List Repayment) :
    postedTo id installment (r :: rs) =
      postedTo id installment [r] ++ postedTo id installment rs :=
  List.filterMap_append (l := [r])

variable {r : Repayment}

theorem postedTo_of_ok {cents : Buckets Cents} (h : Amounts.toCents r.amount = .ok cents)
    (id : LoanId) (installment : Nat) :
    postedTo id installment [r] =
      if r.loan = id ∧ r.installment = installment then [cents] else [] := by
  by_cases hposted : r.loan = id ∧ r.installment = installment
  · simp [postedTo, h, Except.toOption, hposted]
  · simp [postedTo, hposted]

theorem postedTo_of_error {e : Error} (h : Amounts.toCents r.amount = .error e) (id : LoanId)
    (installment : Nat) : postedTo id installment [r] = [] := by
  simp [postedTo, h, Except.toOption]

end Repayment

open Repayment (postedTo)

namespace Book

variable {b : Book} {id : LoanId} {l : Loan}

/-- A repayment on an installment that is there is posted. -/
theorem exists_repay (hl : b.loans.find? id = some l) {e : LiveEntry} (he : e ∈ l.schedule)
    (amount : Buckets Cents) : ∃ b', b.repay id e.installment amount = .ok b' := by
  have hany : l.schedule.any (·.installment = e.installment) :=
    List.any_eq_true.2 ⟨e, he, decide_eq_true rfl⟩
  refine ⟨⟨b.products, b.loans.put id (l.repay e.installment amount)⟩, ?_⟩
  unfold Book.repay
  rw [hl]
  exact if_pos hany

/-- After one call, whether it fails or not, every installment of the loan has got what the call
    posts to it. -/
theorem exists_find?_after_repayment (hl : b.loans.find? id = some l) (r : Repayment) :
    ∃ l', ((r.write.apply b).toOption.getD b).loans.find? id = some l' ∧
      l'.schedule = l.schedule.map fun e => e.repayAll (postedTo id e.installment [r]) := by
  have hkept (h : ∀ e ∈ l.schedule, postedTo id e.installment [r] = []) :
      l.schedule = l.schedule.map fun e => e.repayAll (postedTo id e.installment [r]) := by
    rw [List.map_congr_left fun e he => by rw [h e he]]
    exact (List.map_id _).symm
  cases hcents : Amounts.toCents r.amount with
  | error e =>
    have happly : r.write.apply b = .error e := by
      simp only [Repayment.write, LoanWrite.apply, hcents, bind, Except.bind]
    rw [happly]
    exact ⟨l, hl, hkept fun e _ => Repayment.postedTo_of_error hcents id e.installment⟩
  | ok cents =>
    have happly : r.write.apply b = b.repay r.loan r.installment cents := by
      simp only [Repayment.write, LoanWrite.apply, hcents, bind, Except.bind]
    have hposted := Repayment.postedTo_of_ok hcents id
    rw [happly]
    cases hrepay : b.repay r.loan r.installment cents with
    | ok b' =>
      obtain ⟨repaid, hrepaid⟩ := exists_repaid hrepay
      by_cases hloan : r.loan = id
      · rw [hloan] at hrepaid
        cases hl.symm.trans hrepaid.before
        refine ⟨_, hrepaid.after, List.map_congr_left fun e _ => ?_⟩
        rw [hposted]
        by_cases hinstallment : e.installment = r.installment
        · simp [hloan, hinstallment, LiveEntry.repayAll]
        · simp [hinstallment, Ne.symm hinstallment, LiveEntry.repayAll]
      · refine ⟨l, ?_, hkept fun e _ => by simp [hposted, hloan]⟩
        exact (hrepaid.others id (Ne.symm hloan)).find?.trans hl
    | error err =>
      refine ⟨l, hl, hkept fun e he => ?_⟩
      rw [hposted, if_neg]
      -- A call that fails names a loan or an installment that is not there.
      rintro ⟨rfl, hinstallment⟩
      obtain ⟨b', hb'⟩ := exists_repay hl he cents
      rw [hinstallment, hb'] at hrepay
      cases hrepay

/-- After any number of calls every installment of the loan has got what they post to it. -/
theorem exists_find?_after (hl : b.loans.find? id = some l) (rs : List Repayment) :
    ∃ l', (b.after (rs.map (·.write))).loans.find? id = some l' ∧
      l'.schedule = l.schedule.map fun e => e.repayAll (postedTo id e.installment rs) := by
  induction rs generalizing b l with
  | nil => exact ⟨l, hl, by simp [LiveEntry.repayAll, postedTo]⟩
  | cons r rs ih =>
    obtain ⟨l₁, hl₁, hschedule₁⟩ := exists_find?_after_repayment hl r
    obtain ⟨l₂, hl₂, hschedule₂⟩ := ih hl₁
    refine ⟨l₂, hl₂, ?_⟩
    rw [hschedule₂, hschedule₁, List.map_map]
    refine List.map_congr_left fun e _ => ?_
    rw [Function.comp_apply, LiveEntry.installment_repayAll, ← LiveEntry.repayAll_append,
      ← Repayment.postedTo_cons]

end Book

/-! ## What repayments make the flag hide -/

/-- What is posted to the installments of the loan adds up in range, call after call. -/
def Loan.StaysInRange (l : Loan) (id : LoanId) (rs : List Repayment) : Prop :=
  ∀ e ∈ l.schedule, ∀ posted, posted <+: postedTo id e.installment rs →
    ∀ i, (Cents.ofInt? (paidSum posted i)).isSome

/-- An installment that is marked to begin with, or is covered at some time, is covered in the
    end. -/
def Loan.StaysCovered (l : Loan) (id : LoanId) (rs : List Repayment) : Prop :=
  ∀ e ∈ l.schedule,
    e.fullyCompleted ∨ e.IsCoveredAtSomeTime (postedTo id e.installment rs) →
      e.CoveredBy (postedTo id e.installment rs)

/-- What is covered stays so as long as no amount is negative. -/
theorem Loan.staysCovered_of_nonneg {l : Loan} (hnew : ∀ e ∈ l.schedule, e.IsNew) {id : LoanId}
    {rs : List Repayment}
    (hamounts : ∀ e ∈ l.schedule, ∀ a ∈ postedTo id e.installment rs, ∀ i, 0 ≤ (a.get i).val) :
    l.StaysCovered id rs := by
  intro e he hcovered i
  have hamounts : ∀ a ∈ postedTo id e.installment rs, 0 ≤ (a.get i).val :=
    fun a ha => hamounts e he a ha i
  rcases hcovered with hmarked | ⟨posted, hposted, -, hcovered⟩
  · rw [(hnew e he).val_due hmarked]
    exact paidSum_nonneg hamounts
  · exact (hcovered i).trans (paidSum_mono hposted hamounts)

/-- Repayments on new installments leave flags that hide nothing when they leave covered what they
    covered. -/
theorem Loan.hidesNothing_iff {l l' : Loan} (hnumbered : l.HasNumberedSchedule)
    (hnew : ∀ e ∈ l.schedule, e.IsNew) {id : LoanId} {rs : List Repayment}
    (hrange : l.StaysInRange id rs)
    (hschedule : l'.schedule =
      l.schedule.map fun e => e.repayAll (postedTo id e.installment rs)) :
    l'.HidesNothing ↔ l.StaysCovered id rs := by
  have hspec : ∀ e ∈ l.schedule,
      (e.repayAll (postedTo id e.installment rs)).HasPaid
          (paidSum (postedTo id e.installment rs)) ∧
        ((e.repayAll (postedTo id e.installment rs)).fullyCompleted ↔
          e.fullyCompleted ∨ e.IsCoveredAtSomeTime (postedTo id e.installment rs)) :=
    fun e he => LiveEntry.repayAll_spec (hnew e he).hasPaid (hrange e he)
  have hup : ∀ e ∈ l.schedule, (e.repayAll (postedTo id e.installment rs)).IsPaidUp ↔
      e.CoveredBy (postedTo id e.installment rs) := by
    intro e he
    rw [(hspec e he).1.isPaidUp_iff, LiveEntry.due_repayAll]
    rfl
  have hflags : (∀ e ∈ l'.schedule, e.fullyCompleted → e.IsPaidUp) ↔ l.StaysCovered id rs := by
    rw [hschedule]
    simp only [List.forall_mem_map, StaysCovered]
    refine forall₂_congr fun e he => ?_
    rw [(hspec e he).2, hup e he]
  rw [← hflags]
  refine ⟨fun h => h.isPaidUp, fun h => ?_⟩
  have hnumbers : l'.numbers = l.numbers := by
    simp only [numbers, hschedule, List.map_map, Function.comp_def,
      LiveEntry.installment_repayAll]
  refine hidesNothing_of_isPaidUp (hnumbered.of_numbers_eq hnumbers) ?_ h
  rw [hschedule, List.forall_mem_map]
  exact fun e he => ⟨_, (hspec e he).1⟩

/-- The loan is there after the calls, and its schedule has got what they posted. -/
theorem Store.exists_loan_after {b : Book} {s : Store} (hs : s.HasBook b) {id : LoanId} {l : Loan}
    (hl : b.loans.find? id = some l) (rs : List Repayment) :
    ∃ b' l', (s.after (rs.map (·.write))).HasBook b' ∧ b'.loans.find? id = some l' ∧
      l'.schedule = l.schedule.map fun e => e.repayAll (postedTo id e.installment rs) := by
  obtain ⟨tables, tx⟩ := s
  obtain ⟨arrears, rfl⟩ := hs
  obtain ⟨l', hl', hschedule⟩ := Book.exists_find?_after hl rs
  refine ⟨_, l', ⟨arrears, ?_⟩, hl', hschedule⟩
  rw [Store.after_eq]

/-- After repayments of any amounts on new installments, with sums in range, no flag of the loan
    hides money exactly when every installment that was covered at some time still is. -/
theorem completed_hides_nothing_iff {b : Book} (hb : b.IsBuilt) {s : Store} (hs : s.HasBook b)
    {id : LoanId} {l : Loan} (hl : b.loans.find? id = some l) (hnew : ∀ e ∈ l.schedule, e.IsNew)
    (rs : List Repayment) (hrange : l.StaysInRange id rs) :
    ∃ b' l', (s.after (rs.map (·.write))).HasBook b' ∧ b'.loans.find? id = some l' ∧
      (l'.HidesNothing ↔ l.StaysCovered id rs) := by
  obtain ⟨b', l', hs', hl', hschedule⟩ := Store.exists_loan_after hs hl rs
  exact ⟨b', l', hs', hl',
    Loan.hidesNothing_iff (hb.hasNumberedSchedules id l hl) hnew hrange hschedule⟩

/-! ## Repayments of the sample book -/

namespace Sample

theorem isNew_of_mem_liveLoan : ∀ e ∈ liveLoan.schedule, e.IsNew := by
  intro e he
  rw [List.mem_singleton.1 he]
  exact ⟨1, 1, dueDate, hundred, rfl⟩

/-- Loan 1 repays its 100 and takes them back. -/
def reversal : List LoanWrite :=
  [.repay 1 1 hundred, .repay 1 1 minusHundred]

/-- What becomes of loan 1 then. -/
def reversedLoan : Loan :=
  { liveLoan with schedule := liveLoan.schedule.map ({ · with fullyCompleted := true }) }

theorem find?_reversed : ((book 2).after reversal).loans.find? 1 = some reversedLoan :=
  rfl

/-- Its one installment is marked, so it has no row. -/
theorem writeOf_reversed : ((book 2).after reversal).writeOf 1 today .auto = .ok (.delete 1) := by
  have hbuilt : (book 2).IsBuilt := isBuilt_book (by decide)
  have hl : (book 2).loans.find? 1 = some liveLoan := rfl
  have hschedule : reversedLoan.HasNumberedSchedule :=
    (hbuilt.hasNumberedSchedules 1 liveLoan hl).of_numbers_eq rfl
  have hhistory : reversedLoan.HasNumberedHistory := by
    have hhistory := hbuilt.sound.histories 1 liveLoan hl
    exact ⟨hhistory.distinct, hhistory.lt⟩
  have howes : reversedLoan.Owes 1 ⟨"live", false, 0⟩ .auto [] := by
    refine .live (by decide) fun e he i => ?_
    rw [List.mem_singleton.1 he]
    cases i <;> rfl
  obtain ⟨t, hwrite, hcounts⟩ := Book.exists_writeOf_of_owes find?_reversed rfl rfl hschedule
    hhistory howes today.cutoff_zero
  have hsince : t.since = none := hcounts.isOldest.unique rfl fun _ => Iff.rfl
  rw [hwrite, ArrearsWrite.ofTotals_of_since_eq_none hsince]

end Sample

/-- A repayment of 100 completes the installment of loan 1, and the flag hides nothing. -/
theorem completed_hides_nothing_sample :
    ∃ b' l', (Store.after ⟨some ⟨Sample.book 2, Table.empty⟩, false⟩
        [.repay 1 1 Sample.hundred]).HasBook b' ∧
      b'.loans.find? 1 = some l' ∧ l'.HidesNothing := by
  let rs : List Repayment := [⟨1, 1, Sample.hundred⟩]
  have hbook : Store.HasBook ⟨some ⟨Sample.book 2, Table.empty⟩, false⟩ (Sample.book 2) :=
    ⟨Table.empty, rfl⟩
  have hl : (Sample.book 2).loans.find? 1 = some Sample.liveLoan := rfl
  have hposted : ∀ e ∈ Sample.liveLoan.schedule,
      postedTo 1 e.installment rs = [Sample.hundredCents] := by
    intro e he
    rw [List.mem_singleton.1 he]
    rfl
  have hrange : Sample.liveLoan.StaysInRange 1 rs := by
    intro e he posted hprefix i
    rw [hposted e he, List.prefix_cons_iff] at hprefix
    rcases hprefix with rfl | ⟨rest, rfl, hrest⟩
    · rfl
    · rw [List.prefix_nil.1 hrest]
      cases i <;> rfl
  obtain ⟨b', l', hs', hl', hiff⟩ := completed_hides_nothing_iff
    (Sample.isBuilt_book (by decide)) hbook hl Sample.isNew_of_mem_liveLoan rs hrange
  refine ⟨b', l', hs', hl', hiff.2 ?_⟩
  refine Loan.staysCovered_of_nonneg Sample.isNew_of_mem_liveLoan fun e he a ha i => ?_
  rw [hposted e he] at ha
  rw [List.mem_singleton.1 ha]
  cases i <;> decide

/-- A repayment of 100 that is taken back leaves the installment of loan 1 completed with nothing
    paid on it: without the flag the loan would owe 100, with it there is no row. -/
theorem completed_hides_reversal_of_sample :
    ∃ b' l', (Store.after ⟨some ⟨Sample.book 2, Table.empty⟩, false⟩
        [.repay 1 1 Sample.hundred, .repay 1 1 Sample.minusHundred]).HasBook b' ∧
      b'.loans.find? 1 = some l' ∧
      (∃ e ∈ l'.schedule, e.fullyCompleted ∧ ¬ e.IsPaidUp) ∧
      Totals.ofLive l'.reopened.liveRows Sample.today =
        .ok ⟨Amounts.ofCents Sample.hundredCents, some Sample.dueDate⟩ ∧
      b'.writeOf 1 Sample.today .auto = .ok (.delete 1) ∧ ¬ l'.HidesNothing := by
  have hhidden : ∃ e ∈ Sample.reversedLoan.schedule, e.fullyCompleted ∧ ¬ e.IsPaidUp := by
    refine ⟨_, List.mem_singleton_self _, rfl, fun hup => ?_⟩
    exact absurd (hup .principal) (by decide)
  refine ⟨(Sample.book 2).after Sample.reversal, Sample.reversedLoan, ⟨Table.empty, ?_⟩,
    Sample.find?_reversed, hhidden, ?_, Sample.writeOf_reversed, ?_⟩
  · exact congrArg Store.tables
      (Store.after_eq (Sample.book 2) Table.empty false Sample.reversal)
  · decide +kernel
  · obtain ⟨e, he, hmarked, hup⟩ := hhidden
    exact fun h => hup (h.isPaidUp e he hmarked)

end LoanArrears
