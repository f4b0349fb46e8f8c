-- SUMMARY: What the completed flag hides: nothing, on both ways to age a live schedule, as long as the installments that carry it are covered.
import LoanArrears.Proofs.Book.Owing
import LoanArrears.Proofs.Book.StoredSum

/-!
# What the completed flag hides

Completed installments are left out of the live schedule wherever it is aged. That is a shortcut:
an installment that is covered leaves nothing, so counting it changes no amount and no date. For the
bulk insert this holds of stored numbers as well, since a difference that is not positive is floored
at zero even when it leaves the range. `Loan.reopened` is the loan without the flags, and a loan
`HidesNothing` when it is aged like that one.
-/

namespace LoanArrears

open Outstanding (dueBefore)

/-! ## Differences that are not positive -/

namespace Stored

theorem round_neg {v : Int} (h : v < 0) : round v < 0 := by
  unfold round roundBits
  dsimp only
  have hpos : 0 < twoTo (v.natAbs.log2 + 1 - bits) := twoTo_pos _
  have hle : twoTo (v.natAbs.log2 + 1 - bits) ≤ v.natAbs := by
    calc twoTo (v.natAbs.log2 + 1 - bits)
        ≤ twoTo v.natAbs.log2 := Nat.pow_le_pow_right (by decide) (by unfold bits; omega)
      _ ≤ v.natAbs := Nat.log2_self_le (by omega)
  have hnear := (roundHalfEven_near v hpos).2
  generalize twoTo (v.natAbs.log2 + 1 - bits) = d at hpos hle hnear ⊢
  rw [Int.mul_assoc, Int.mul_comm (d : Int)] at hnear
  omega

/-- The number is zero or below it. -/
def AddsNothing (a : Stored) : Prop :=
  a = zero ∨ a.val < 0

namespace AddsNothing

variable {a : Stored}

theorem floor_eq (h : a.AddsNothing) : a.floor = zero := by
  rcases h with rfl | hneg
  · rfl
  · exact if_pos hneg

theorem not_val_pos (h : a.AddsNothing) : ¬ 0 < a.val := by
  rcases h with rfl | hneg
  · exact Int.lt_irrefl 0
  · omega

theorem sub_zero (h : a.AddsNothing) : (a.sub zero).AddsNothing := by
  rcases h with rfl | hneg
  · exact .inl rfl
  · right
    cases a with
    | exact c =>
      have hsame : Cents.ofInt? (c.val - Cents.zero.val) = some c := by
        rw [show c.val - Cents.zero.val = c.val from Int.sub_zero _, Cents.ofInt?_val]
      rw [zero, sub_exact hsame]
      exact hneg
    | approx v =>
      show round (round v - round 0) < 0
      rw [round_zero, Int.sub_zero]
      exact round_neg (round_neg hneg)

end AddsNothing

/-- The difference to a number that is no smaller, in range or not. -/
theorem addsNothing_sub {x y : Cents} (h : x.val ≤ y.val) :
    ((exact x).sub (exact y)).AddsNothing := by
  cases hc : Cents.ofInt? (x.val - y.val) with
  | some c =>
    have hval := Cents.val_of_ofInt? hc
    rw [sub_exact hc]
    by_cases hzero : c.val = 0
    · exact .inl (congrArg exact (Cents.ext_val hzero))
    · right
      show c.val < 0
      omega
  | none =>
    -- Out of range, the numbers have different signs, and rounding keeps both.
    have hlow : x.val - y.val < -9223372036854775808 := by
      unfold Cents.ofInt? at hc
      split at hc
      · cases hc
      · omega
    have hx := round_neg (v := x.val) (by have hhi := y.lt_hi; omega)
    have hy := round_nonneg (v := y.val) (by have hlo := x.lo_le; omega)
    right
    simp only [sub, combine, hc, Option.map_none, Option.getD_none, val]
    exact round_neg (by omega)

/-- Zeros do not count for a sum. -/
theorem sum?_filter {items : List α} {p : α → Bool} {f : α → Stored}
    (h : ∀ a ∈ items, ¬ p a → f a = zero) :
    sum? ((items.filter p).map f) = sum? (items.map f) := by
  have hparts : ((items.filter p).map f).all isExact = (items.map f).all isExact ∧
      (((items.filter p).map f).map (·.val)).sum = ((items.map f).map (·.val)).sum := by
    induction items with
    | nil => exact ⟨rfl, rfl⟩
    | cons a items ih =>
      obtain ⟨hall, hsum⟩ := ih fun a' ha' => h a' (List.mem_cons_of_mem _ ha')
      by_cases hp : p a
      · rw [List.filter_cons_of_pos hp]
        simp only [List.map_cons, List.all_cons, List.sum_cons, hall, hsum, and_self]
      · have hzero : f a = zero := h a List.mem_cons_self hp
        have hval : zero.val = 0 := rfl
        have hexact : zero.isExact = true := rfl
        rw [List.filter_cons_of_neg hp]
        simp only [List.map_cons, List.all_cons, List.sum_cons, hall, hsum, hzero, hval, hexact,
          Int.zero_add, Bool.true_and, and_self]
  simp only [sum?, foldl_val, hparts]

end Stored

/-! ## Installments that leave nothing -/

namespace Outstanding

variable {items : List α} {p : α → Bool} {left : α → Outstanding}

theorem sum_filter (h : ∀ a ∈ items, ¬ p a → ∀ i, (left a).cents.get i = 0) (i : Bucket) :
    sum ((items.filter p).map left) i = sum (items.map left) i := by
  induction items with
  | nil => rfl
  | cons a items ih =>
    have hrest := ih fun a' ha' => h a' (List.mem_cons_of_mem _ ha')
    by_cases hp : p a
    · rw [List.filter_cons_of_pos hp, List.map_cons, List.map_cons, sum_cons, sum_cons, hrest]
    · rw [List.filter_cons_of_neg hp, List.map_cons, sum_cons, h a List.mem_cons_self hp, hrest,
        Nat.zero_add]

theorem principalDates_filter (h : ∀ a ∈ items, ¬ p a → ∀ i, (left a).cents.get i = 0) :
    principalDates ((items.filter p).map left) = principalDates (items.map left) := by
  simp only [principalDates, List.filter_map, List.filter_filter, List.map_map]
  refine congrArg (List.map _) (List.filter_congr fun a ha => ?_)
  by_cases hp : p a
  · simp [hp]
  · have hzero : (left a).cents.principal = 0 := h a ha hp .principal
    simp [hp, hzero]

/-- The cutoff can be applied first. -/
theorem dueBefore_map (cutoff : Date) (items : List α) (left : α → Outstanding) :
    dueBefore cutoff (items.map left) =
      (items.filter fun a => (left a).dueDate.before cutoff).map left :=
  List.filter_map ..

end Outstanding

namespace LiveEntry

/-- So much was paid on the installment, and nothing was waived or written off. -/
structure HasPaid (e : LiveEntry) (paid : Bucket → Int) : Prop where
  completed : ∀ i, ∃ c : Cents, e.completed.get i = .exact c ∧ c.val = paid i
  waived : e.waived = .all .zero
  writtenOff : e.writtenOff = .all .zero

/-- What was consumed of the installment covers every bucket of its due. -/
def IsPaidUp (e : LiveEntry) : Prop :=
  ∀ i, (e.due.get i).val ≤ (e.consumed.get i).val

theorem isCovered_iff {e : LiveEntry} : e.isCovered ↔ e.IsPaidUp := by
  rw [isCovered, List.all_eq_true, Buckets.forall_mem_toList]
  refine forall_congr' fun i => ?_
  rw [Buckets.get_zipWith]
  exact decide_eq_true_iff

theorem IsPaidUp.owed_eq_zero {e : LiveEntry} (h : e.IsPaidUp) (i : Bucket) :
    e.owed.cents.get i = 0 := by
  have hle := h i
  rw [owed, Buckets.get_tabulate]
  omega

namespace HasPaid

variable {e : LiveEntry} {paid : Bucket → Int}

theorem consumed (h : e.HasPaid paid) (i : Bucket) :
    ∃ c : Cents, e.consumed.get i = .exact c ∧ c.val = paid i := by
  obtain ⟨c, hc, hval⟩ := h.completed i
  refine ⟨c, ?_, hval⟩
  have hadd : Stored.add (.exact c) (.exact .zero) = .exact c :=
    Stored.add_exact_of_val (Int.add_zero _)
  simp only [LiveEntry.consumed, exactly, h.waived, h.writtenOff, Buckets.get_zipWith,
    Buckets.get_map, Buckets.get_all, hc, hadd]

theorem isExact (h : e.HasPaid paid) (i : Bucket) : (e.consumed.get i).isExact := by
  obtain ⟨c, hc, -⟩ := h.consumed i
  rw [hc]
  rfl

theorem val_consumed (h : e.HasPaid paid) (i : Bucket) : (e.consumed.get i).val = paid i := by
  obtain ⟨c, hc, hval⟩ := h.consumed i
  rw [hc]
  exact hval

theorem isPaidUp_iff (h : e.HasPaid paid) : e.IsPaidUp ↔ ∀ i, (e.due.get i).val ≤ paid i := by
  simp only [IsPaidUp, h.val_consumed]

/-- An installment that is paid up adds nothing to the bulk insert. -/
theorem addsNothing (h : e.HasPaid paid) (hup : e.IsPaidUp) (i : Bucket) :
    (e.outstanding.get i).AddsNothing := by
  obtain ⟨c, hc, hval⟩ := h.completed i
  have hle : (e.due.get i).val ≤ c.val := hval ▸ h.isPaidUp_iff.1 hup i
  simp only [outstanding, exactly, h.waived, h.writtenOff, Buckets.get_zipWith, Buckets.get_map,
    Buckets.get_all, hc]
  exact (Stored.addsNothing_sub hle).sub_zero.sub_zero

end HasPaid

/-- The installment with its flag cleared. -/
def reopened (e : LiveEntry) : LiveEntry :=
  { e with fullyCompleted := false }

end LiveEntry

/-! ## Loans -/

/-- The sums of the bulk insert depend on what the installments add to each bucket. -/
theorem overdueSums_congr {entries entries' : List LiveEntry}
    (h : ∀ i, Stored.sum? (entries.map (·.added i)) = Stored.sum? (entries'.map (·.added i))) :
    overdueSums entries = overdueSums entries' := by
  have hprincipal := h .principal
  have hinterest := h .interest
  have hfee := h .fee
  have hpenalty := h .penalty
  simp only [LiveEntry.added, Buckets.get] at hprincipal hinterest hfee hpenalty
  simp only [overdueSums, hprincipal, hinterest, hfee, hpenalty]

namespace Loan

/-- The loan with the flags of all installments cleared. -/
def reopened (l : Loan) : Loan :=
  { l with schedule := l.schedule.map LiveEntry.reopened }

/-- Installments that carry the flag are paid up, and leaving them out changes neither what the
    loan is aged by on its own nor its entry of the bulk insert, at any cutoff. -/
structure HidesNothing (l : Loan) : Prop where
  isPaidUp : ∀ e ∈ l.schedule, e.fullyCompleted → e.IsPaidUp
  live : ∀ cutoff, ∃ t t', Totals.ofLive l.liveRows cutoff = .ok t ∧
    Totals.ofLive l.reopened.liveRows cutoff = .ok t' ∧ t'.since = t.since ∧
    ∀ i, (t'.overdue.get i).eqv (t.overdue.get i)
  bulk : ∀ cutoff, l.reopened.bulkEntry? cutoff = l.bulkEntry? cutoff

variable {l : Loan}

/-- Without flags a live schedule of which the flagged installments are paid up is counted to the
    same amounts and the same date. -/
theorem ofLive_reopened (hnumbered : l.HasNumberedSchedule)
    (hexact : ∀ e ∈ l.schedule, ∀ i, (e.consumed.get i).isExact)
    (hup : ∀ e ∈ l.schedule, e.fullyCompleted → e.IsPaidUp) (cutoff : Date) :
    ∃ t t', Totals.ofLive l.liveRows cutoff = .ok t ∧
      Totals.ofLive l.reopened.liveRows cutoff = .ok t' ∧ t'.since = t.since ∧
      ∀ i, (t'.overdue.get i).eqv (t.overdue.get i) := by
  have hnumbers : l.reopened.numbers = l.numbers := by
    simp only [numbers, reopened, List.map_map]
    rfl
  have hexact' : ∀ e ∈ l.reopened.schedule, ∀ i, (e.consumed.get i).isExact := by
    intro e he
    obtain ⟨e', he', rfl⟩ := List.mem_map.1 he
    exact hexact e' he'
  have hopen : (l.reopened.schedule.filter (!·.fullyCompleted)).map (·.owed) =
      l.schedule.map (·.owed) := by
    simp only [reopened, LiveEntry.reopened, List.filter_map, List.map_map, Function.comp_def,
      Bool.not_false, List.filter_true]
    rfl
  have hdue : dueBefore cutoff ((l.schedule.filter (!·.fullyCompleted)).map (·.owed)) =
      ((l.schedule.filter fun e => e.owed.dueDate.before cutoff).filter
        (!·.fullyCompleted)).map (·.owed) := by
    rw [Outstanding.dueBefore_map, List.filter_filter, List.filter_filter]
    simp only [Bool.and_comm]
  have hzero : ∀ e ∈ l.schedule.filter fun e => e.owed.dueDate.before cutoff,
      ¬(!e.fullyCompleted) → ∀ i, e.owed.cents.get i = 0 := by
    intro e he hcompleted
    exact (hup e (List.mem_of_mem_filter he) (by simpa using hcompleted)).owed_eq_zero
  obtain ⟨t, ht, hcounts⟩ := hnumbered.exists_ofLive hexact cutoff
  obtain ⟨t', ht', hcounts'⟩ := (hnumbered.of_numbers_eq hnumbers).exists_ofLive hexact' cutoff
  rw [hdue] at hcounts
  rw [hopen, Outstanding.dueBefore_map] at hcounts'
  refine ⟨t, t', ht, ht', ?_, fun i => ?_⟩
  · refine hcounts'.isOldest.unique hcounts.isOldest fun d => ?_
    rw [Outstanding.principalDates_filter hzero]
  · have hcents := hcounts.isCents i
    rw [Outstanding.sum_filter hzero] at hcents
    exact (hcounts'.isCents i).eqv hcents

/-- Without flags the bulk insert finds the same entry, if flagged installments add nothing. -/
theorem bulkEntry?_reopened
    (h : ∀ e ∈ l.schedule, e.fullyCompleted → ∀ i, (e.outstanding.get i).AddsNothing)
    (cutoff : Option String) : l.reopened.bulkEntry? cutoff = l.bulkEntry? cutoff := by
  let due := l.schedule.filter fun e => e.dueDate.isBeforeText cutoff
  have hentries : l.overdueByText cutoff = due.filter (!·.fullyCompleted) := by
    simp only [overdueByText, due, List.filter_filter]
  have hreopened : l.reopened.overdueByText cutoff = due.map LiveEntry.reopened := by
    simp only [overdueByText, reopened, List.filter_map, due]
    rfl
  have hnothing : ∀ e ∈ due, ¬(!e.fullyCompleted) → ∀ i, (e.outstanding.get i).AddsNothing := by
    intro e he hcompleted
    exact h e (List.mem_of_mem_filter he) (by simpa using hcompleted)
  have hsums : overdueSums (l.reopened.overdueByText cutoff) =
      overdueSums (l.overdueByText cutoff) := by
    rw [hentries, hreopened]
    refine overdueSums_congr fun i => ?_
    have hzero : ∀ e ∈ due, ¬(!e.fullyCompleted) → e.added i = Stored.zero :=
      fun e he hcompleted => (hnothing e he hcompleted i).floor_eq
    rw [Stored.sum?_filter hzero, List.map_map]
    rfl
  have hsince : overdueSince? (l.reopened.overdueByText cutoff) =
      overdueSince? (l.overdueByText cutoff) := by
    have hdates : (due.filter (!·.fullyCompleted)).filter (0 < ·.outstanding.principal.val) =
        due.filter (0 < ·.outstanding.principal.val) := by
      rw [List.filter_filter]
      refine List.filter_congr fun e he => ?_
      by_cases hcompleted : (!e.fullyCompleted)
      · simp [hcompleted]
      · have hval := (hnothing e he hcompleted .principal).not_val_pos
        simp only [Buckets.get] at hval
        simp [hval]
    rw [hentries, hreopened, overdueSince?, overdueSince?, hdates, List.filter_map, List.map_map]
    rfl
  unfold overdueByText at hsums hsince
  unfold bulkEntry?
  simp only [hsums, hsince]

/-- Flags that only installments carry which are paid up hide nothing. -/
theorem hidesNothing_of_isPaidUp (hnumbered : l.HasNumberedSchedule)
    (hpaid : ∀ e ∈ l.schedule, ∃ paid, e.HasPaid paid)
    (hup : ∀ e ∈ l.schedule, e.fullyCompleted → e.IsPaidUp) : l.HidesNothing where
  isPaidUp := hup
  live := by
    refine ofLive_reopened hnumbered (fun e he => ?_) hup
    obtain ⟨paid, hpaid⟩ := hpaid e he
    exact hpaid.isExact
  bulk := by
    refine bulkEntry?_reopened fun e he hcompleted => ?_
    obtain ⟨paid, hpaid⟩ := hpaid e he
    exact hpaid.addsNothing (hup e he hcompleted)

end Loan

end LoanArrears
