-- SUMMARY: Allocation over schedules of cents: it has an answer for every installment, and adding up what is left does not crash.
import LoanArrears.Proofs.Arrears.Outstanding

/-!
# Allocating cents

Pouring amounts of cents, none of them negative, over dues of the same kind gives every
installment its coverage, with the due dates in the order of the schedule. What is left of an
installment is at most its due. As many installments as there are numbers for one version of
a schedule add up to less than the largest coefficient, so totals are counted without a crash.
-/

namespace LoanArrears

/-- Amounts of cents in the range of the tables, none of them negative. -/
def Amounts.AreCents (b : Amounts) : Prop :=
  ∀ i, ∃ n : Nat, n < Bound.int64 ∧ (b.get i).IsCents n

theorem Amounts.anyNegative_eq_false_iff {b : Amounts} :
    b.anyNegative = false ↔ ∀ i, (b.get i).isNegative = false := by
  simp only [anyNegative, List.any_eq_false, Bool.not_eq_true, Buckets.forall_mem_toList]

theorem Amounts.anyNegative_ofCents_eq_false_iff {b : Buckets Cents} :
    (Amounts.ofCents b).anyNegative = false ↔ ∀ i, 0 ≤ (b.get i).val := by
  rw [anyNegative_eq_false_iff]
  refine forall_congr' fun i => ?_
  rw [ofCents, Buckets.get_map, Bool.eq_false_iff, Ne, (Decimal.isCents_ofCents _).isNegative_iff,
    Int.not_lt]

theorem Amounts.areCents_ofCents {b : Buckets Cents} (h : (Amounts.ofCents b).anyNegative = false) :
    (Amounts.ofCents b).AreCents := by
  intro i
  have hi := anyNegative_ofCents_eq_false_iff.1 h i
  have hlt := (b.get i).lt_hi
  refine ⟨(b.get i).val.toNat, ?_, ?_⟩
  · unfold Bound.int64
    omega
  · rw [Int.toNat_of_nonneg hi, Amounts.ofCents, Buckets.get_map]
    exact Decimal.isCents_ofCents _

/-- The cents of a bucket, for amounts that are not negative. -/
def Amounts.cents (b : Amounts) (i : Bucket) : Nat :=
  (b.get i).coeff.toNat

theorem Amounts.cents_eq {b : Amounts} {i : Bucket} {n : Nat} (h : (b.get i).IsCents n) :
    b.cents i = n := by
  rw [cents, h.1, Int.toNat_natCast]

theorem Amounts.AreCents.isCents {b : Amounts} (h : b.AreCents) (i : Bucket) :
    (b.get i).IsCents (b.cents i) := by
  obtain ⟨n, -, hn⟩ := h i
  rw [cents_eq hn]
  exact hn

theorem Amounts.AreCents.cents_lt {b : Amounts} (h : b.AreCents) (i : Bucket) :
    b.cents i < Bound.int64 := by
  obtain ⟨n, hlt, hn⟩ := h i
  rw [cents_eq hn]
  exact hlt

theorem not_anyNegative_of_validateSchedule {loan : LoanId} {schedule : List PlannedInstallment}
    (h : validateSchedule loan schedule = .ok ()) : ∀ s ∈ schedule, s.due.anyNegative = false := by
  unfold validateSchedule at h
  split at h
  · cases h
  split at h
  · cases h
  split at h
  · cases h
  · next hnone =>
    intro s hs
    simpa using List.find?_eq_none.1 hnone s hs

/-! ## Pouring -/

/-- An installment takes its due or what the pool has, and leaves the rest. -/
theorem exists_pour {due pool : Decimal} {n m : Nat} (hdue : due.IsCents n)
    (hpool : pool.IsCents m) (hm : m < Bound.int64) :
    ∃ p, pour due pool = .ok p ∧ p.paid.IsCents (min n m : Nat) ∧ p.left.IsCents (m - n : Nat) ∧
      (p.covered ↔ n ≤ m) := by
  have hle : due.le pool ↔ n ≤ m := (hdue.le_iff hpool).trans Int.ofNat_le
  unfold pour
  by_cases hnm : n ≤ m
  · rw [if_pos (hle.2 hnm)]
    have hlimit : ((m : Int) - n).natAbs < Decimal.coeffLimit := by
      unfold Decimal.coeffLimit Bound.nat96
      unfold Bound.int64 at hm
      omega
    obtain ⟨left, hleft, hcents⟩ := hpool.exists_sub hdue hlimit
    refine ⟨⟨due, left, true⟩, ?_, ?_, ?_, iff_of_true rfl hnm⟩
    · rw [hleft]
      rfl
    · rw [Nat.min_eq_left hnm]
      exact hdue
    · rw [Int.natCast_sub hnm]
      exact hcents
  · rw [if_neg (mt hle.1 hnm)]
    have hmn : m ≤ n := Nat.le_of_not_le hnm
    refine ⟨⟨pool, .zero, false⟩, rfl, ?_, ?_, iff_of_false Bool.false_ne_true hnm⟩
    · rw [Nat.min_eq_right hmn]
      exact hpool
    · rw [Nat.sub_eq_zero_of_le hmn]
      exact Decimal.isCents_zero

namespace Coverage

/-- What was paid is cents, and no more than was due. -/
def IsSound (a : Coverage) : Prop :=
  ∀ i, ∃ n m : Nat, n < Bound.int64 ∧ m ≤ n ∧ (a.due.get i).IsCents n ∧ (a.paid.get i).IsCents m

/-- What the installment leaves unpaid. -/
def left (a : Coverage) : Outstanding where
  dueDate := a.dueDate
  cents := .tabulate fun i => ((a.due.get i).coeff - (a.paid.get i).coeff).toNat

theorem IsSound.left_lt {a : Coverage} (h : a.IsSound) (i : Bucket) :
    a.left.cents.get i < Bound.int64 := by
  obtain ⟨n, m, hn, -, hdue, hpaid⟩ := h i
  rw [left, Buckets.get_tabulate, hdue.1, hpaid.1]
  omega

theorem IsSound.exists_outstanding {a : Coverage} (h : a.IsSound) :
    ∃ b, a.outstanding = .ok b ∧ ∀ i, (b.get i).IsCents (a.left.cents.get i) := by
  unfold Coverage.outstanding Amounts.monus
  apply Buckets.exists_zipWithM_eq_ok (p := fun i (b : Decimal) => b.IsCents (a.left.cents.get i))
  intro i
  obtain ⟨n, m, hn, hle, hdue, hpaid⟩ := h i
  have hlimit : ((n : Int) - m).natAbs < Decimal.coeffLimit := by
    unfold Decimal.coeffLimit Bound.nat96
    unfold Bound.int64 at hn
    omega
  rw [left, Buckets.get_tabulate, hdue.1, hpaid.1]
  exact hdue.exists_monus hpaid hlimit

end Coverage

/-! ## Allocating -/

/-- The installment takes what is due from a pool of cents, in each bucket as far as the pool
    has it, and it is complete when the pool covers every bucket. -/
structure Coverage.Takes (a : Coverage) (s : PlannedInstallment) (pool : Bucket → Nat) : Prop where
  installment : a.installment = s.installment
  dueDate : a.dueDate = s.dueDate
  due : a.due = s.due
  areCents : s.due.AreCents
  paid : ∀ i, (a.paid.get i).IsCents (min (s.due.cents i) (pool i) : Nat)
  complete : a.complete ↔ ∀ i, s.due.cents i ≤ pool i

theorem Coverage.Takes.isSound {a : Coverage} {s : PlannedInstallment} {pool : Bucket → Nat}
    (h : a.Takes s pool) : a.IsSound := by
  intro i
  refine ⟨s.due.cents i, min (s.due.cents i) (pool i), h.areCents.cents_lt i,
    Nat.min_le_left _ _, ?_, h.paid i⟩
  rw [h.due]
  exact h.areCents.isCents i

/-- The installments take from the pool one after the other, each from what those before it
    left. -/
inductive Waterfall : List PlannedInstallment → (Bucket → Nat) → List Coverage → Prop where
  | nil {pool : Bucket → Nat} : Waterfall [] pool []
  | cons {s : PlannedInstallment} {rest : List PlannedInstallment} {pool : Bucket → Nat}
      {a : Coverage} {others : List Coverage} (takes : a.Takes s pool)
      (flows : Waterfall rest (fun i => pool i - s.due.cents i) others) :
      Waterfall (s :: rest) pool (a :: others)

theorem Waterfall.isSound {schedule : List PlannedInstallment} {pool : Bucket → Nat}
    {allocated : List Coverage} (h : Waterfall schedule pool allocated) :
    ∀ a ∈ allocated, a.IsSound := by
  induction h with
  | nil => exact List.forall_mem_nil _
  | cons takes _ ih => exact List.forall_mem_cons.2 ⟨takes.isSound, ih⟩

/-- A schedule of cents is allocated, as a waterfall from what was consumed. -/
theorem exists_waterfall {schedule : List PlannedInstallment} {pool : Amounts}
    (hschedule : ∀ s ∈ schedule, s.due.AreCents) (hpool : pool.AreCents) :
    ∃ allocated, allocate schedule pool = .ok allocated ∧
      Waterfall schedule pool.cents allocated := by
  induction schedule generalizing pool with
  | nil => exact ⟨[], rfl, .nil⟩
  | cons s rest ih =>
    have hdue : s.due.AreCents := hschedule s List.mem_cons_self
    have hpour (i : Bucket) : ∃ p, pour (s.due.get i) (pool.get i) = .ok p ∧
        p.paid.IsCents (min (s.due.cents i) (pool.cents i) : Nat) ∧
        p.left.IsCents (pool.cents i - s.due.cents i : Nat) ∧
        (p.covered ↔ s.due.cents i ≤ pool.cents i) :=
      exists_pour (hdue.isCents i) (hpool.isCents i) (hpool.cents_lt i)
    obtain ⟨poured, hpoured, hparts⟩ := Buckets.exists_zipWithM_eq_ok hpour
    have hleft (i : Bucket) : ((poured.map Poured.left).get i).IsCents
        (pool.cents i - s.due.cents i : Nat) := by
      rw [Buckets.get_map]
      exact (hparts i).2.1
    have hcents : Amounts.cents (poured.map Poured.left) =
        fun i => pool.cents i - s.due.cents i :=
      funext fun i => Amounts.cents_eq (hleft i)
    have hareCents : Amounts.AreCents (poured.map Poured.left) := fun i =>
      ⟨_, Nat.lt_of_le_of_lt (Nat.sub_le _ _) (hpool.cents_lt i), hleft i⟩
    obtain ⟨others, hothers, hflows⟩ :=
      ih (fun s' hs' => hschedule s' (List.mem_cons_of_mem _ hs')) hareCents
    let a : Coverage := ⟨s.installment, s.dueDate, s.due, poured.map fun p => p.paid,
      (poured.map fun p => p.covered).toList.all id⟩
    have htakes : a.Takes s pool.cents := by
      refine ⟨rfl, rfl, rfl, hdue, ?_, ?_⟩
      · intro i
        rw [Buckets.get_map]
        exact (hparts i).1
      · show (poured.map fun p => p.covered).toList.all id = true ↔ _
        rw [List.all_eq_true, Buckets.forall_mem_toList]
        refine forall_congr' fun i => ?_
        rw [Buckets.get_map]
        exact (hparts i).2.2
    refine ⟨a :: others, ?_, .cons htakes (hcents ▸ hflows)⟩
    simp only [allocate, hpoured, hothers, bind, Except.bind]
    rfl

theorem dueDate_of_allocate {schedule : List PlannedInstallment} {pool : Amounts}
    {allocated : List Coverage} (h : allocate schedule pool = .ok allocated) :
    allocated.map (·.dueDate) = schedule.map (·.dueDate) := by
  induction schedule generalizing pool allocated with
  | nil => cases h; rfl
  | cons s rest ih =>
    unfold allocate at h
    cases hpoured : s.due.zipWithM pour pool with
    | error c => rw [hpoured] at h; cases h
    | ok poured =>
      simp only [hpoured, bind, Except.bind] at h
      cases hothers : allocate rest (poured.map (·.left)) with
      | error c => rw [hothers] at h; cases h
      | ok others =>
        rw [hothers] at h
        cases h
        simp only [List.map_cons, ih hothers]

/-- What an allocation leaves outstanding before the cutoff. -/
def overdueCoverage (allocated : List Coverage) (cutoff : Date) : List Outstanding :=
  (allocated.filter fun a => a.dueDate.before cutoff && !a.complete).map (·.left)

/-- What is left adds up as long as no bucket of it leaves the range of decimals. -/
theorem Totals.exists_ofAllocation_of_lt {allocated : List Coverage} {cutoff : Date}
    (h : ∀ a ∈ allocated, a.IsSound)
    (hlimit : ∀ i, Outstanding.sum (overdueCoverage allocated cutoff) i < Decimal.coeffLimit) :
    ∃ t, Totals.ofAllocation allocated cutoff = .ok t ∧
      t.Counts (overdueCoverage allocated cutoff) := by
  have hleft : ∀ a ∈ allocated.filter fun a => a.dueDate.before cutoff && !a.complete,
      ∃ b, a.outstanding = .ok b ∧ ∀ i, (b.get i).IsCents (a.left.cents.get i) := fun a ha =>
    (h a (List.mem_of_mem_filter ha)).exists_outstanding
  exact Totals.zero_counts.foldlM (fun a _ => rfl) hleft hlimit

theorem Totals.exists_ofAllocation {allocated : List Coverage} (h : ∀ a ∈ allocated, a.IsSound)
    (hlength : allocated.length ≤ Bound.nat32) (cutoff : Date) :
    ∃ t, Totals.ofAllocation allocated cutoff = .ok t ∧
      t.Counts (overdueCoverage allocated cutoff) := by
  refine Totals.exists_ofAllocation_of_lt h fun i => ?_
  have hle : Outstanding.sum (overdueCoverage allocated cutoff) i ≤
      (overdueCoverage allocated cutoff).length * Bound.int64 := by
    apply Outstanding.sum_le_of_forall_le
    intro o ho
    obtain ⟨a, ha, rfl⟩ := List.mem_map.1 ho
    exact Nat.le_of_lt ((h a (List.mem_of_mem_filter ha)).left_lt i)
  have hcount : (overdueCoverage allocated cutoff).length ≤ Bound.nat32 := by
    rw [overdueCoverage, List.length_map]
    exact Nat.le_trans (List.length_filter_le ..) hlength
  unfold Bound.nat32 at hcount
  unfold Bound.int64 at hle
  unfold Decimal.coeffLimit Bound.nat96
  omega

/-- Without an installment due before the cutoff nothing is added up. -/
theorem Totals.ofAllocation_of_not_before {allocated : List Coverage} {cutoff : Date}
    (h : ∀ a ∈ allocated, a.dueDate.before cutoff = false) :
    Totals.ofAllocation allocated cutoff = .ok .zero := by
  have hnil : (allocated.filter fun a => a.dueDate.before cutoff && !a.complete) = [] := by
    rw [List.filter_eq_nil_iff]
    intro a ha
    simp [h a ha]
  rw [Totals.ofAllocation, hnil]
  rfl

end LoanArrears
