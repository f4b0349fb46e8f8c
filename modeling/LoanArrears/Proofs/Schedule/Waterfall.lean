-- SUMMARY: The law of the waterfall: what an installment is paid is its due or what the installments before it leave of the pool, and the first one that is short ends the payments of its bucket.
import LoanArrears.Proofs.Schedule.Allocation

/-!
# The waterfall

In each bucket an installment is paid what is due, as far as the pool still has it after the dues
of all the installments before it. So the payments of a bucket add up to the pool or to all the
dues, whichever is less, and behind an installment that is short nothing is paid. Due dates play
no part in it: the pool flows in the order of the list.
-/

namespace LoanArrears

/-- Amounts as they come out of the tables. -/
def Amounts.IsStored (b : Amounts) : Prop :=
  ∃ c : Buckets Cents, b = Amounts.ofCents c

theorem Amounts.IsStored.areCents {b : Amounts} (h : b.IsStored)
    (hnonneg : b.anyNegative = false) : b.AreCents := by
  obtain ⟨c, rfl⟩ := h
  exact Amounts.areCents_ofCents hnonneg

/-! ## Sums of dues -/

/-- The sum of the dues of a bucket, in cents. -/
def dueSum (schedule : List PlannedInstallment) (i : Bucket) : Nat :=
  (schedule.map fun s => s.due.cents i).sum

@[simp] theorem dueSum_nil (i : Bucket) : dueSum [] i = 0 := rfl

@[simp] theorem dueSum_cons (s : PlannedInstallment) (rest : List PlannedInstallment)
    (i : Bucket) : dueSum (s :: rest) i = s.due.cents i + dueSum rest i :=
  List.sum_cons

theorem dueSum_perm {schedule schedule' : List PlannedInstallment} (p : schedule.Perm schedule')
    (i : Bucket) : dueSum schedule i = dueSum schedule' i :=
  (p.map _).sum_eq

/-- The dues up to a later position contain those up to an earlier one and the due of that. -/
theorem dueSum_take_add_le {schedule : List PlannedInstallment} {k l : Nat} {s : PlannedInstallment}
    (hs : schedule[k]? = some s) (hkl : k < l) (i : Bucket) :
    dueSum (schedule.take k) i + s.due.cents i ≤ dueSum (schedule.take l) i := by
  induction schedule generalizing k l with
  | nil => cases hs
  | cons x rest ih =>
    obtain ⟨l, rfl⟩ : ∃ l', l = l' + 1 := ⟨l - 1, by omega⟩
    rw [List.take_succ_cons, dueSum_cons]
    cases k with
    | zero =>
      cases hs
      rw [List.take_zero, dueSum_nil]
      omega
    | succ k =>
      have hrest := ih hs (Nat.lt_of_succ_lt_succ hkl)
      rw [List.take_succ_cons, dueSum_cons]
      omega

/-! ## What one installment is paid -/

namespace Coverage

/-- What an installment gets out of a pool: paid as far as the pool has its dues, complete when
    nothing of them is missing, and outstanding exactly what is. -/
structure IsFilled (a : Coverage) (s : PlannedInstallment) (pool : Bucket → Nat) : Prop where
  paid : ∀ i, (a.paid.get i).IsCents (min (s.due.cents i) (pool i) : Nat)
  paid_le : ∀ i, a.paid.cents i ≤ s.due.cents i
  complete : a.complete ↔ ∀ i, a.paid.cents i = s.due.cents i
  outstanding : ∃ b, a.outstanding = .ok b ∧
    ∀ i, (b.get i).IsCents (s.due.cents i - a.paid.cents i : Nat)

namespace Takes

variable {a : Coverage} {s : PlannedInstallment} {pool : Bucket → Nat}

theorem cents_paid (h : a.Takes s pool) (i : Bucket) :
    a.paid.cents i = min (s.due.cents i) (pool i) :=
  Amounts.cents_eq (h.paid i)

/-- What is left of a due is what the pool does not have of it. -/
theorem get_left (h : a.Takes s pool) (i : Bucket) :
    a.left.cents.get i = s.due.cents i - pool i := by
  have hdue : (a.due.get i).coeff = s.due.cents i := by
    rw [h.due]
    exact (h.areCents.isCents i).1
  rw [left, Buckets.get_tabulate, hdue, (h.paid i).1]
  omega

theorem isFilled (h : a.Takes s pool) : a.IsFilled s pool := by
  refine ⟨h.paid, ?_, ?_, ?_⟩
  · intro i
    rw [h.cents_paid]
    exact Nat.min_le_left _ _
  · refine h.complete.trans (forall_congr' fun i => ?_)
    rw [h.cents_paid]
    omega
  · obtain ⟨b, hb, hcents⟩ := h.isSound.exists_outstanding
    refine ⟨b, hb, fun i => ?_⟩
    have hleft : s.due.cents i - a.paid.cents i = a.left.cents.get i := by
      rw [h.get_left, h.cents_paid]
      omega
    rw [hleft]
    exact hcents i

end Takes

end Coverage

/-! ## The whole list -/

namespace Waterfall

variable {schedule : List PlannedInstallment} {pool : Bucket → Nat} {allocated : List Coverage}

/-- Numbers, dates and dues are kept, in their order. -/
theorem map_eq (h : Waterfall schedule pool allocated) :
    allocated.map (fun a => (a.installment, a.dueDate, a.due)) =
      schedule.map fun s => (s.installment, s.dueDate, s.due) := by
  induction h with
  | nil => rfl
  | cons takes _ ih =>
    rw [List.map_cons, List.map_cons, ih, takes.installment, takes.dueDate, takes.due]

/-- At every position the pool is short of the dues before it. -/
theorem takes (h : Waterfall schedule pool allocated) {k : Nat} {s : PlannedInstallment}
    {a : Coverage} (hs : schedule[k]? = some s) (ha : allocated[k]? = some a) :
    a.Takes s fun i => pool i - dueSum (schedule.take k) i := by
  induction h generalizing k with
  | nil => cases hs
  | @cons x rest pool c others takes flows ih =>
    cases k with
    | zero =>
      cases hs
      cases ha
      exact takes
    | succ k =>
      have hpool : (fun i => pool i - dueSum ((x :: rest).take (k + 1)) i) =
          fun i => pool i - x.due.cents i - dueSum (rest.take k) i := by
        funext i
        rw [List.take_succ_cons, dueSum_cons, Nat.sub_sub]
      rw [hpool]
      exact ih hs ha

/-- The payments of a bucket add up to the pool, or to the dues if those are less. -/
theorem sum_paid (h : Waterfall schedule pool allocated) (i : Bucket) :
    (allocated.map fun a => a.paid.cents i).sum = min (pool i) (dueSum schedule i) := by
  induction h with
  | nil => exact (Nat.min_zero _).symm
  | cons takes flows ih =>
    rw [List.map_cons, List.sum_cons, ih, dueSum_cons, takes.cents_paid]
    dsimp only
    omega

theorem exists_getElem? (h : Waterfall schedule pool allocated) {k : Nat} {a : Coverage}
    (ha : allocated[k]? = some a) : ∃ s, schedule[k]? = some s := by
  have hlength : allocated.length = schedule.length := by
    simpa using congrArg List.length h.map_eq
  obtain ⟨hk, -⟩ := List.getElem?_eq_some_iff.1 ha
  exact ⟨schedule[k], List.getElem?_eq_getElem (hlength ▸ hk)⟩

/-- Behind an installment that is short nothing is paid in its bucket. -/
theorem paid_eq_zero_of_short (h : Waterfall schedule pool allocated) {i : Bucket} {k l : Nat}
    {a b : Coverage} (hkl : k < l) (ha : allocated[k]? = some a) (hb : allocated[l]? = some b)
    (hshort : a.paid.cents i < a.due.cents i) : b.paid.cents i = 0 := by
  obtain ⟨s, hs⟩ := h.exists_getElem? ha
  obtain ⟨s', hs'⟩ := h.exists_getElem? hb
  have htakes := h.takes hs ha
  have hdues := dueSum_take_add_le hs hkl i
  rw [htakes.cents_paid, htakes.due] at hshort
  rw [(h.takes hs' hb).cents_paid]
  omega

end Waterfall

/-- An allocation of stored amounts, none of them negative, is the waterfall in the order of the
    list: it keeps the installments, and pays each of them in every bucket what is due or what the
    dues before it leave of the pool. The payments add up, and stop where one is short. -/
theorem allocate_fills_in_order {schedule : List PlannedInstallment} {consumed : Amounts}
    (hdues : ∀ s ∈ schedule, s.due.IsStored ∧ s.due.anyNegative = false)
    (hconsumed : consumed.IsStored) (hnonneg : consumed.anyNegative = false) :
    ∃ allocated, allocate schedule consumed = .ok allocated ∧
      allocated.map (fun a => (a.installment, a.dueDate, a.due)) =
        schedule.map (fun s => (s.installment, s.dueDate, s.due)) ∧
      (∀ (k : Nat) (s : PlannedInstallment) (a : Coverage), schedule[k]? = some s →
        allocated[k]? = some a →
          a.IsFilled s fun i => consumed.cents i - dueSum (schedule.take k) i) ∧
      ∀ i, (allocated.map fun a => a.paid.cents i).sum =
          min (consumed.cents i) (dueSum schedule i) ∧
        ∀ (k l : Nat) (a b : Coverage), k < l → allocated[k]? = some a →
          allocated[l]? = some b → a.paid.cents i < a.due.cents i → b.paid.cents i = 0 := by
  obtain ⟨allocated, hallocate, hflows⟩ := exists_waterfall
    (fun s hs => (hdues s hs).1.areCents (hdues s hs).2) (hconsumed.areCents hnonneg)
  refine ⟨allocated, hallocate, hflows.map_eq, ?_, ?_⟩
  · intro k s a hs ha
    exact (hflows.takes hs ha).isFilled
  · intro i
    refine ⟨hflows.sum_paid i, ?_⟩
    intro k l a b hkl ha hb hshort
    exact hflows.paid_eq_zero_of_short hkl ha hb hshort

/-! ## A schedule of two installments -/

namespace Sample

def principalAndFee (principal fee : Cents) : Amounts :=
  Amounts.ofCents ⟨principal, .zero, fee, .zero⟩

/-- 20 February 2024. -/
def secondDueDate : Date := ⟨Civil.dayNumber ⟨2024, 2, 20⟩, by decide, by decide⟩

/-- 150 of principal and a fee of 5 on 20 January 2024, and the same a month later. -/
def schedule : List PlannedInstallment :=
  let due := principalAndFee ⟨15000, by decide, by decide⟩ ⟨500, by decide, by decide⟩
  [⟨1, ⟨Civil.dayNumber ⟨2024, 1, 20⟩, by decide, by decide⟩, due⟩, ⟨2, secondDueDate, due⟩]

/-- 220 of principal and 12 of fees. -/
def consumed : Amounts :=
  principalAndFee ⟨22000, by decide, by decide⟩ ⟨1200, by decide, by decide⟩

theorem isStored_consumed : consumed.IsStored := ⟨_, rfl⟩

theorem isStored_schedule : ∀ s ∈ schedule, s.due.IsStored := by
  intro s hs
  simp only [schedule, List.mem_cons, List.not_mem_nil, or_false] at hs
  rcases hs with rfl | rfl <;> exact ⟨_, rfl⟩

end Sample

/-- The first installment is complete, and the other one is short of principal only. -/
theorem allocate_fills_sample :
    ∃ allocated, allocate Sample.schedule Sample.consumed = .ok allocated ∧
      allocated.map (·.complete) = [true, false] ∧
      (allocated.map fun a => a.paid.cents .principal).sum = 22000 ∧
      (allocated.map fun a => a.paid.cents .fee).sum = 1000 := by
  have hnonneg : ∀ s ∈ Sample.schedule, s.due.anyNegative = false := by decide +kernel
  obtain ⟨allocated, hallocate, -, -, hsums⟩ := allocate_fills_in_order
    (fun s hs => ⟨Sample.isStored_schedule s hs, hnonneg s hs⟩) Sample.isStored_consumed rfl
  refine ⟨allocated, hallocate, ?_, (hsums .principal).1.trans (by decide),
    (hsums .fee).1.trans (by decide)⟩
  have hcomplete : (allocate Sample.schedule Sample.consumed).map (List.map (·.complete)) =
      .ok [true, false] := by
    decide +kernel
  rw [hallocate] at hcomplete
  exact Except.ok.inj hcomplete

end LoanArrears
