-- SUMMARY: Synthetic loans as the book keeps them: both ledgers agree, nothing is overpaid, flags and statuses match what was paid, and a rescheduled loan has its first schedule.
import LoanArrears.Proofs.Book.Ledgers
import LoanArrears.Proofs.Synthetic.Installments

/-!
# Synthetic loans

A draw of a loan yields rows that can be prepared, and the loan that they are prepared to is
`Loan.IsSynthetic`, whatever the numbers are that were drawn. Its lifetime totals are the sums over
its installments, of which none is overpaid. An installment is flagged when all of its due is
completed, as are all installments of a closed loan. A loan that is rescheduled is an active one of
the product that ages by the planned schedule; its open installments are due later than planned, and
the planned schedule is its history.
-/

namespace LoanArrears

open Synthetic

/-! ## What is kept -/

/-- The live installment of a loan that was disbursed on a date, and rescheduled or not. -/
structure LiveEntry.IsSynthetic (e : LiveEntry) (disbursed : Date) (rescheduled : Bool) :
    Prop where
  dueDate : e.dueDate.number = disbursed.number + e.installment * periodDays +
    if rescheduled && !e.fullyCompleted then rescheduleDays else 0
  due_le : ∀ i, (e.due.get i).val ≤ maxDue
  isExact : ∀ i, (e.completed.get i).isExact
  completed_nonneg : ∀ i, 0 ≤ (e.completed.get i).val
  completed_le : ∀ i, (e.completed.get i).val ≤ (e.due.get i).val
  waived : e.waived = .all .zero
  writtenOff : e.writtenOff = .all .zero
  fullyCompleted : e.fullyCompleted ↔ ∀ i, (e.completed.get i).val = (e.due.get i).val

/-- The installment as it was planned. -/
structure HistoryEntry.IsSynthetic (e : HistoryEntry) (disbursed : Date) : Prop where
  version : e.version = 1
  dueDate : e.dueDate.number = disbursed.number + e.installment * periodDays
  due_nonneg : ∀ i, 0 ≤ (e.due.get i).val
  due_le : ∀ i, (e.due.get i).val ≤ maxDue

/-- A loan that was disbursed up to 389 days before the business date, and rescheduled or not. -/
structure Loan.IsSynthetic (l : Loan) (today disbursed : Date) (rescheduled : Bool) : Prop where
  early : today.number - 389 ≤ disbursed.number
  late : disbursed.number ≤ today.number
  product : ∃ p ∈ products, l.product = p.id
  status : l.status = Status.active.code ∨ l.status = Status.closedObligationsMet.code
  grace : l.grace = none
  /-- What was repaid over the lifetime is what the installments completed. -/
  repaid : ∀ i, (l.repaid.get i).isExact ∧ (l.repaid.get i).val = l.completedSum i
  waived : l.waived = .all .zero
  writtenOff : l.writtenOff = .all .zero
  three_le : 3 ≤ l.schedule.length
  le_twelve : l.schedule.length ≤ 12
  numbers : l.numbers = (List.range l.schedule.length).map (· + 1)
  live : ∀ e ∈ l.schedule, e.IsSynthetic disbursed rescheduled
  closed : l.status = Status.closedObligationsMet.code → ∀ e ∈ l.schedule, e.fullyCompleted
  active : rescheduled → l.status = Status.active.code ∧ l.product = businessLoan.id
  /-- The installments before a reschedule are those after it, but for their dates. -/
  history : l.history.map (fun e => (e.installment, e.due)) =
    if rescheduled then l.schedule.map (fun e => (e.installment, e.due)) else []
  planned : ∀ e ∈ l.history, e.IsSynthetic disbursed

namespace Synthetic

/-- The rows can be prepared, and are prepared to the loan and its schedules. -/
structure LoanRows.Becomes (r : LoanRows) (id : LoanId) (l : Loan) : Prop where
  loanId : r.loan.id = id
  loan : r.loan.prepare = .ok { l with schedule := [], history := [] }
  live : List.Forall₂ (fun x e => x.loan = id ∧ x.prepare = .ok e) r.live l.schedule
  history : List.Forall₂ (fun x e => x.loan = id ∧ x.prepare = .ok e) r.history l.history

/-! ## Rows of an installment -/

/-- The number and the due of an installment in the book. -/
def Installment.plan (i : Installment) : Nat × Buckets Cents :=
  (i.number, (Amounts.toCents i.due).toOption.getD (.all .zero))

theorem Installment.plan_eq {i : Installment} {due : Buckets Cents}
    (h : Amounts.toCents i.due = .ok due) : i.plan = (i.number, due) := by
  rw [plan, h]
  rfl

/-- The entry has the number and the due of the installment, and what is paid of it. -/
structure Installment.IsKeptAs (i : Installment) (paid : Amounts) (e : LiveEntry) : Prop where
  plan : (e.installment, e.due) = i.plan
  due : ∀ k, (e.due.get k).val = i.due.cents k
  completed : ∀ k, (e.completed.get k).val = paid.cents k

theorem toCents_zero : Amounts.toCents Amounts.zero = .ok (.all .zero) := rfl

theorem maxDue_lt : maxDue < Bound.int64 := by decide

/-- Amounts that are at most `maxDue` are kept as they are. -/
theorem exists_toCents_of_areUpTo {a : Amounts} (h : a.AreUpTo fun _ => maxDue) :
    ∃ c, Amounts.toCents a = .ok c ∧ ∀ k, (c.get k).val = a.cents k :=
  Amounts.exists_toCents h.isCents fun k => Nat.lt_of_le_of_lt (h.cents_le k) maxDue_lt

/-- What is left of dues is zero when they are paid. -/
theorem exists_monus_of_areUpTo {due paid : Amounts} (hdue : due.AreUpTo fun _ => maxDue)
    (hpaid : paid.AreUpTo due.cents) :
    ∃ left, Amounts.monus due paid = .ok left ∧
      (left.isZero ↔ ∀ k, paid.cents k = due.cents k) := by
  have hmonus (k : Bucket) : ∃ c, (due.get k).monus (paid.get k) = .ok c ∧
      c.IsCents ((due.cents k : Int) - paid.cents k).toNat := by
    refine (hdue.isCents k).exists_monus (hpaid.isCents k) ?_
    have hle := hdue.cents_le k
    have hle' := hpaid.cents_le k
    unfold maxDue at hle
    unfold Decimal.coeffLimit Bound.nat96
    omega
  obtain ⟨left, hleft, hcents⟩ := Buckets.exists_zipWithM_eq_ok hmonus
  refine ⟨left, hleft, ?_⟩
  rw [Amounts.isZero, List.all_eq_true, Buckets.forall_mem_toList]
  refine forall_congr' fun k => ?_
  have hle := hpaid.cents_le k
  rw [(hcents k).isZero_iff]
  omega

namespace Installment

variable {i : Installment} {disbursed : Date} {paid : Amounts}

theorem exists_liveDate (h : i.dueDate.number + rescheduleDays ≤ Date.last) (moved : Bool) :
    ∃ d, i.liveDate moved = .ok d ∧
      d.number = i.dueDate.number + if moved then rescheduleDays else 0 := by
  cases moved with
  | true =>
    obtain ⟨d, hd, hnumber⟩ := Date.exists_addDays? h
    refine ⟨d, ?_, hnumber⟩
    rw [liveDate, if_pos rfl, hd]
    rfl
  | false => exact ⟨i.dueDate, rfl, (Int.add_zero _).symm⟩

/-- The live row of an installment can be prepared. -/
theorem IsDrawn.exists_liveRow (hi : i.IsDrawn disbursed) (hpaid : paid.AreUpTo i.due.cents)
    (hroom : i.dueDate.number + rescheduleDays ≤ Date.last) (id : LoanId) (rescheduled : Bool) :
    ∃ r e, i.liveRow id rescheduled paid = .ok r ∧ (r.loan = id ∧ r.prepare = .ok e) ∧
      e.IsSynthetic disbursed rescheduled ∧ i.IsKeptAs paid e := by
  obtain ⟨left, hleft, hzero⟩ := exists_monus_of_areUpTo hi.due hpaid
  obtain ⟨d, hd, hnumber⟩ := exists_liveDate hroom (rescheduled && !left.isZero)
  obtain ⟨due, hdue, hdueval⟩ := exists_toCents_of_areUpTo hi.due
  obtain ⟨completed, hcompleted, hval⟩ := exists_toCents_of_areUpTo (hpaid.trans hi.due)
  refine ⟨⟨id, i.number, d, i.due, paid, .zero, .zero, left.isZero⟩,
    ⟨i.number, d, due, exactly completed, .all .zero, .all .zero, left.isZero⟩, ?_,
    ⟨rfl, ?_⟩, ?_, (plan_eq hdue).symm, hdueval, fun k => ?_⟩
  · rw [liveRow, hleft]
    show (i.liveDate (rescheduled && !left.isZero) >>= _) = _
    rw [hd]
    rfl
  · simp only [LiveRow.prepare, hdue, hcompleted, toCents_zero]
    rfl
  · have hexact (k : Bucket) : (exactly completed).get k = .exact (completed.get k) :=
      Buckets.get_map _ _ _
    refine ⟨?_, fun k => ?_, fun k => ?_, fun k => ?_, fun k => ?_, rfl, rfl, ?_⟩
    · rw [hnumber, hi.dueDate]
    · rw [hdueval]
      exact_mod_cast hi.due.cents_le k
    · rw [hexact]
      rfl
    · rw [hexact]
      show 0 ≤ (completed.get k).val
      rw [hval]
      exact Int.natCast_nonneg _
    · rw [hexact]
      show (completed.get k).val ≤ (due.get k).val
      rw [hval, hdueval]
      exact_mod_cast hpaid.cents_le k
    · show left.isZero ↔ _
      rw [hzero]
      refine forall_congr' fun k => ?_
      rw [hexact]
      show _ ↔ (completed.get k).val = (due.get k).val
      rw [hval, hdueval, Int.natCast_inj]
  · show ((exactly completed).get k).val = _
    rw [exactly, Buckets.get_map]
    exact hval k

/-- So can the row that is kept of it before a reschedule. -/
theorem IsDrawn.exists_historyRow (hi : i.IsDrawn disbursed) (id : LoanId) :
    ∃ e, (i.historyRow id).prepare = .ok e ∧ e.IsSynthetic disbursed ∧
      (e.installment, e.due) = i.plan := by
  obtain ⟨due, hdue, hdueval⟩ := exists_toCents_of_areUpTo hi.due
  refine ⟨⟨1, i.number, i.dueDate, due⟩, ?_, ⟨rfl, hi.dueDate, fun k => ?_, fun k => ?_⟩,
    (plan_eq hdue).symm⟩
  · simp only [HistoryRow.prepare, historyRow, hdue]
    rfl
  · rw [hdueval]
    exact Int.natCast_nonneg _
  · rw [hdueval]
    exact_mod_cast hi.due.cents_le k

end Installment

/-! ## Sums -/

end Synthetic

/-- Amounts of cents add up without a crash. -/
theorem Amounts.exists_foldlM_add {as : List Amounts} {acc : Amounts} {n : Bucket → Nat}
    (hacc : ∀ k, (acc.get k).IsCents (n k)) (has : ∀ a ∈ as, ∀ k, (a.get k).IsCents (a.cents k))
    (hlimit : ∀ k, n k + (as.map (·.cents k)).sum < Decimal.coeffLimit) :
    ∃ total, as.foldlM Amounts.add acc = .ok total ∧
      ∀ k, (total.get k).IsCents (n k + (as.map (·.cents k)).sum : Nat) := by
  induction as generalizing acc n with
  | nil => exact ⟨acc, rfl, hacc⟩
  | cons a as ih =>
    rw [List.forall_mem_cons] at has
    have hadd (k : Bucket) :
        ∃ c, (acc.get k).add (a.get k) = .ok c ∧ c.IsCents (n k + a.cents k : Nat) := by
      refine (hacc k).exists_add (has.1 k) ?_
      have hk := hlimit k
      rw [List.map_cons, List.sum_cons] at hk
      omega
    obtain ⟨acc', hacc', hcents⟩ := Buckets.exists_zipWithM_eq_ok hadd
    obtain ⟨total, htotal, hsum⟩ := ih hcents has.2 fun k => by
      have hk := hlimit k
      rw [List.map_cons, List.sum_cons, ← Nat.add_assoc] at hk
      exact hk
    refine ⟨total, ?_, fun k => ?_⟩
    · rw [List.foldlM_cons, Amounts.add, hacc']
      exact htotal
    · rw [List.map_cons, List.sum_cons, ← Nat.add_assoc]
      exact hsum k

/-- Items that have a third one between them and their partners have a list of these. -/
theorem exists_between_of_forall₂ {p : β → γ → Prop} {q : α → γ → Prop} {as : List α}
    {bs : List β} (h : List.Forall₂ (fun a b => ∃ c, p b c ∧ q a c) as bs) :
    ∃ cs, List.Forall₂ p bs cs ∧ List.Forall₂ q as cs := by
  induction h with
  | nil => exact ⟨[], .nil, .nil⟩
  | cons hab _ ih =>
    obtain ⟨c, hp, hq⟩ := hab
    obtain ⟨cs, hps, hqs⟩ := ih
    exact ⟨c :: cs, .cons hp hps, .cons hq hqs⟩

namespace Synthetic

/-! ## Drawing loans -/

theorem yields_drawProduct : drawProduct.Yields (· ∈ products) := by
  refine (yields_between 32 (Nat.zero_le 9)).bind fun n _ => .pure ?_
  unfold products
  split
  · simp
  · split <;> simp

theorem yields_drawClosed (paidInFull periods : Nat) :
    (drawClosed paidInFull periods).Yields fun closed => closed → paidInFull = periods := by
  unfold drawClosed
  split
  · next h => exact (yields_chance 5 10).imp fun _ _ _ => h
  · exact .pure fun h => absurd h Bool.false_ne_true

theorem yields_drawRescheduled {product : ProductRow} (hproduct : product ∈ products)
    (closed : Bool) :
    (drawRescheduled product closed).Yields fun rescheduled =>
      rescheduled → product = businessLoan ∧ closed = false := by
  unfold drawRescheduled
  split
  · next h =>
    rw [Bool.and_eq_true, Bool.not_eq_true'] at h
    refine (yields_chance 6 10).imp fun _ _ _ => ⟨?_, h.2⟩
    have honly : ∀ p ∈ products, p.byPlannedSchedule → p = businessLoan := by decide
    exact honly product hproduct h.1
  · exact .pure fun h => absurd h Bool.false_ne_true

/-- What is paid of the installments of a schedule, all of it for a loan that is closed. -/
structure IsPaid (paid : List (Installment × Amounts)) (schedule : List Installment)
    (closed : Bool) : Prop where
  installments : paid.map (·.1) = schedule
  upTo : ∀ p ∈ paid, p.2.AreUpTo p.1.due.cents
  inFull : closed → ∀ p ∈ paid, p.2 = p.1.due

theorem yields_paid {schedule : List Installment} {disbursed today : Date}
    (hschedule : IsSchedule schedule disbursed today) {share : Decimal} {m : Nat}
    (hshare : share.IsCents m) (hm : m ≤ 100) {paidInFull : Nat} {closed : Bool}
    (hclosed : closed → paidInFull = schedule.length) :
    Draw.Yields (schedule.zipIdx.mapM fun (i, index) => do
      return (i, ← i.paid index paidInFull share)) (IsPaid · schedule closed) := by
  refine (Draw.Yields.mapM (r := fun x p => p.1 = x.1 ∧ p.2.AreUpTo x.1.due.cents ∧
    (x.2 < paidInFull → p.2 = x.1.due)) fun x hx => ?_).imp fun paid hpaid => ?_
  · have hmem : x.1 ∈ schedule := List.fst_mem_of_mem_zipIdx hx
    have hdrawn := (hschedule.drawn _ hmem).exists_paid hshare hm x.2 paidInFull
    exact (Draw.Yields.lift hdrawn).bind fun paid hpaid => .pure ⟨rfl, hpaid⟩
  · refine ⟨?_, fun p hp => ?_, fun h p hp => ?_⟩
    · rw [map_eq_of_forall₂ hpaid (f := Prod.fst) fun x p hp => hp.1, List.zipIdx_map_fst]
    · obtain ⟨x, -, hfst, hup, -⟩ := exists_row_of_mem hpaid hp
      rw [hfst]
      exact hup
    · obtain ⟨x, hx, hfst, -, hall⟩ := exists_row_of_mem hpaid hp
      rw [hfst]
      refine hall ?_
      rw [hclosed h]
      exact List.snd_lt_of_mem_zipIdx hx

section Parts

variable {schedule : List Installment} {disbursed today : Date}
  {paid : List (Installment × Amounts)} {closed rescheduled : Bool} {entries : List LiveEntry}

theorem IsSchedule.number_le (h : IsSchedule schedule disbursed today) {i : Installment}
    (hi : i ∈ schedule) : i.number ≤ 12 := by
  have hmem := List.mem_map_of_mem (f := (·.number)) hi
  rw [h.numbers] at hmem
  obtain ⟨k, hk, hnumber⟩ := List.mem_map.1 hmem
  have hlt := List.mem_range.1 hk
  have hle := h.le_twelve
  omega

/-- The live schedule keeps the installments and what is paid of them. -/
def Keeps (entries : List LiveEntry) (paid : List (Installment × Amounts)) (disbursed : Date)
    (rescheduled : Bool) : Prop :=
  List.Forall₂ (fun p e => e.IsSynthetic disbursed rescheduled ∧ p.1.IsKeptAs p.2 e) paid entries

theorem yields_live (hschedule : IsSchedule schedule disbursed today)
    (htoday : today.HasRoom) (hpaid : IsPaid paid schedule closed) (id : LoanId)
    (rescheduled : Bool) :
    Draw.Yields (paid.mapM fun p => (p.1.liveRow id rescheduled p.2 : Except Crash LiveRow))
      fun live => ∃ entries,
        List.Forall₂ (fun x e => x.loan = id ∧ x.prepare = .ok e) live entries ∧
          Keeps entries paid disbursed rescheduled := by
  refine (Draw.Yields.mapM fun p hp => .lift ?_).imp fun live => exists_between_of_forall₂
  have hmem : p.1 ∈ schedule := hpaid.installments ▸ List.mem_map_of_mem hp
  have hroom : p.1.dueDate.number + rescheduleDays ≤ Date.last := by
    have hlast : Date.lastText ≤ Date.last := by decide
    have hnumber := hschedule.number_le hmem
    have hlate := hschedule.late
    have hafter := htoday.2
    rw [(hschedule.drawn _ hmem).dueDate]
    unfold rescheduleDays periodDays
    omega
  obtain ⟨r, e, hr, hbecomes, he⟩ :=
    (hschedule.drawn _ hmem).exists_liveRow (hpaid.upTo p hp) hroom id rescheduled
  exact ⟨r, hr, e, hbecomes, he⟩

theorem exists_history (hschedule : IsSchedule schedule disbursed today) (id : LoanId) :
    ∃ history,
      List.Forall₂ (fun x e => x.loan = id ∧ x.prepare = .ok e) (schedule.map (·.historyRow id))
        history ∧
      (∀ e ∈ history, e.IsSynthetic disbursed) ∧
      history.map (fun e => (e.installment, e.due)) = schedule.map (·.plan) := by
  have hrows : List.Forall₂ (fun (i : Installment) (x : HistoryRow) => ∃ e : HistoryEntry,
      (x.loan = id ∧ x.prepare = .ok e) ∧
        e.IsSynthetic disbursed ∧ (e.installment, e.due) = i.plan)
      schedule (schedule.map (·.historyRow id)) := by
    rw [List.forall₂_map_right_iff, List.forall₂_same]
    intro i hi
    obtain ⟨e, he, hsynthetic, hplan⟩ := (hschedule.drawn i hi).exists_historyRow id
    exact ⟨e, ⟨rfl, he⟩, hsynthetic, hplan⟩
  obtain ⟨history, hbecomes, hplanned⟩ := exists_between_of_forall₂ hrows
  refine ⟨history, hbecomes, fun e he => ?_, map_eq_of_forall₂ hplanned fun i e he => he.2⟩
  obtain ⟨i, -, hsynthetic, -⟩ := exists_row_of_mem hplanned he
  exact hsynthetic

/-- What is paid adds up to an amount that is kept as it is. -/
theorem IsPaid.exists_repaid (hschedule : IsSchedule schedule disbursed today)
    (hpaid : IsPaid paid schedule closed) :
    ∃ total cents, (paid.map (·.2)).foldlM Amounts.add Amounts.zero = .ok total ∧
      Amounts.toCents total = .ok cents ∧
      ∀ k, (cents.get k).val = ((paid.map fun p => p.2.cents k).sum : Nat) := by
  have hlength : paid.length ≤ 12 := by
    rw [← List.length_map (·.1), hpaid.installments]
    exact hschedule.le_twelve
  have hle (k : Bucket) : ((paid.map (·.2)).map (·.cents k)).sum ≤ 12 * maxDue := by
    refine (List.sum_le_card_nsmul _ maxDue fun n hn => ?_).trans ?_
    · obtain ⟨a, ha, rfl⟩ := List.mem_map.1 hn
      obtain ⟨p, hp, rfl⟩ := List.mem_map.1 ha
      have hmem : p.1 ∈ schedule := hpaid.installments ▸ List.mem_map_of_mem hp
      exact ((hpaid.upTo p hp).trans (hschedule.drawn _ hmem).due).cents_le k
    · simpa using Nat.mul_le_mul_right maxDue hlength
  have hcents : ∀ a ∈ paid.map (·.2), ∀ k, (a.get k).IsCents (a.cents k) := by
    intro a ha
    obtain ⟨p, hp, rfl⟩ := List.mem_map.1 ha
    exact (hpaid.upTo p hp).isCents
  have hzero (k : Bucket) : (Amounts.zero.get k).IsCents (0 : Nat) := by
    rw [Amounts.zero, Buckets.get_all]
    exact Decimal.isCents_zero
  obtain ⟨total, htotal, hsum⟩ := Amounts.exists_foldlM_add hzero hcents fun k => by
    rw [Nat.zero_add]
    exact Nat.lt_of_le_of_lt (hle k) (by decide)
  obtain ⟨cents, htoCents, hval⟩ := Amounts.exists_toCents hsum fun k => by
    rw [Nat.zero_add]
    exact Nat.lt_of_le_of_lt (hle k) (by decide)
  refine ⟨total, cents, htotal, htoCents, fun k => ?_⟩
  rw [hval, Nat.zero_add, List.map_map]
  rfl

/-- The kept parts of a loan make a synthetic loan. -/
theorem isSynthetic_of_parts (hschedule : IsSchedule schedule disbursed today)
    (hpaid : IsPaid paid schedule closed) (hkeeps : Keeps entries paid disbursed rescheduled)
    {product : ProductRow} (hproduct : product ∈ products)
    (hrescheduled : rescheduled → product = businessLoan ∧ closed = false)
    {repaid : Buckets Cents}
    (hrepaid : ∀ k, (repaid.get k).val = ((paid.map fun p => p.2.cents k).sum : Nat))
    {history : List HistoryEntry} (hplanned : ∀ e ∈ history, e.IsSynthetic disbursed)
    (hhistory : history.map (fun e => (e.installment, e.due)) =
      if rescheduled then schedule.map (·.plan) else []) :
    Loan.IsSynthetic
      { product := product.id
        status := (if closed then Status.closedObligationsMet else .active).code
        grace := none, repaid := exactly repaid, waived := .all .zero, writtenOff := .all .zero
        schedule := entries, history } today disbursed rescheduled := by
  have hlength : entries.length = schedule.length := by
    rw [← hkeeps.length_eq, ← hpaid.installments, List.length_map]
  -- The entries have the plans of the installments, in their order.
  have hplans : entries.map (fun e => (e.installment, e.due)) = schedule.map (·.plan) := by
    rw [map_eq_of_forall₂ (f := fun p => p.1.plan) hkeeps fun p e he => he.2.plan,
      ← hpaid.installments, List.map_map]
    rfl
  have hnumbers : entries.map (·.installment) = schedule.map (·.number) := by
    have h := congrArg (List.map Prod.fst) hplans
    rwa [List.map_map, List.map_map] at h
  refine { hschedule with
    product := ⟨product, hproduct, rfl⟩
    status := ?_
    grace := rfl
    repaid := fun k => ?_
    waived := rfl
    writtenOff := rfl
    three_le := hlength ▸ hschedule.three_le
    le_twelve := hlength ▸ hschedule.le_twelve
    numbers := ?_
    live := fun e he => ?_
    closed := fun h e he => ?_
    active := fun h => ?_
    history := ?_
    planned := hplanned }
  · cases closed with
    | true => exact .inr rfl
    | false => exact .inl rfl
  · have hexact : (exactly repaid).get k = .exact (repaid.get k) := Buckets.get_map _ _ _
    show ((exactly repaid).get k).isExact ∧ ((exactly repaid).get k).val =
      (entries.map fun e => (e.completed.get k).val).sum
    rw [hexact, map_eq_of_forall₂ (f := fun p => (p.2.cents k : Int)) hkeeps fun p e he =>
      he.2.completed k]
    refine ⟨rfl, (hrepaid k).trans ?_⟩
    rw [Nat.cast_list_sum, List.map_map]
    rfl
  · show entries.map (·.installment) = _
    rw [hnumbers, hschedule.numbers, hlength]
  · obtain ⟨p, -, hsynthetic, -⟩ := exists_row_of_mem hkeeps he
    exact hsynthetic
  · obtain ⟨p, hp, hsynthetic, hkept⟩ := exists_row_of_mem hkeeps he
    have hclosed : closed := by
      cases closed with
      | true => rfl
      | false => cases h
    refine hsynthetic.fullyCompleted.2 fun k => ?_
    rw [hkept.completed, hkept.due, hpaid.inFull hclosed p hp]
  · obtain ⟨rfl, rfl⟩ := hrescheduled h
    exact ⟨rfl, rfl⟩
  · show history.map _ = if rescheduled then entries.map _ else []
    rw [hhistory, hplans]

end Parts

/-- A draw of a loan yields rows of a synthetic loan. -/
theorem yields_drawLoan {today : Date} (htoday : today.HasRoom) (id : LoanId) :
    (drawLoan id today).Yields fun r =>
      ∃ l disbursed rescheduled, r.Becomes id l ∧ l.IsSynthetic today disbursed rescheduled := by
  unfold drawLoan
  refine yields_drawProduct.bind fun product hproduct => ?_
  refine (yields_drawSchedule htoday).bind fun schedule ⟨disbursed, hschedule⟩ => ?_
  refine (yields_between 32 (Nat.zero_le _)).bind fun paidInFull _ => ?_
  refine (yields_amount (by decide) (by decide)).bind fun share ⟨m, hm, hshare⟩ => ?_
  refine (yields_drawClosed _ _).bind fun closed hclosed => ?_
  refine (yields_drawRescheduled hproduct closed).bind fun rescheduled hrescheduled => ?_
  refine (yields_paid hschedule hshare hm hclosed).bind fun paid hpaid => ?_
  refine (yields_live hschedule htoday hpaid id rescheduled).bind
    fun live ⟨entries, hlive, hkeeps⟩ => ?_
  obtain ⟨total, repaid, htotal, hrepaid, hsum⟩ := hpaid.exists_repaid hschedule
  refine .bind (.lift (p := (· = total)) ⟨total, htotal, rfl⟩) ?_
  rintro total rfl
  obtain ⟨history, hhistory, hplanned, hplans⟩ : ∃ history,
      List.Forall₂ (fun x e => x.loan = id ∧ x.prepare = .ok e)
        (if rescheduled then schedule.map (·.historyRow id) else []) history ∧
      (∀ e ∈ history, e.IsSynthetic disbursed) ∧
      history.map (fun e => (e.installment, e.due)) =
        if rescheduled then schedule.map (·.plan) else [] := by
    cases rescheduled with
    | true => exact exists_history hschedule id
    | false => exact ⟨[], .nil, List.forall_mem_nil _, rfl⟩
  refine .pure ⟨_, disbursed, rescheduled, ⟨rfl, ?_, hlive, hhistory⟩,
    isSynthetic_of_parts hschedule hpaid hkeeps hproduct hrescheduled hsum hplanned hplans⟩
  simp only [LoanRow.prepare, Lifetime.zero, hrepaid, toCents_zero]
  rfl

end Synthetic

end LoanArrears
