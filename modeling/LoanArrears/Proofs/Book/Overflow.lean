-- SUMMARY: When the bulk insert accepts a book: what its loans have outstanding adds up in range, and to the total that is stored.
import LoanArrears.Proofs.Book.Live
import Mathlib.Algebra.BigOperators.Group.List.Basic
import Mathlib.Algebra.Order.BigOperators.Group.List

/-!
# Overflow of the bulk insert

The bulk insert adds up stored numbers. Exact numbers with a sum that is out of range are an
error of the whole statement. Where a number went out of range before, the sum is approximate;
what is stored of it may be exact again, and then the total that was computed without that can
differ from the buckets in the table. `Loan.AddsUp` says that a loan causes neither error, and
the bulk insert accepts a book when all loans that it ages add up.
-/

namespace LoanArrears

/-! ## Columns -/

namespace Stored

@[simp] theorem val_settle (a : Stored) : a.settle.val = a.val := by
  cases a with
  | exact c => rfl
  | approx v =>
    unfold settle
    dsimp only
    split
    · rfl
    · cases hc : Cents.ofInt? v with
      | none => rfl
      | some c => exact Cents.val_of_ofInt? hc

theorem floor_nonneg (a : Stored) : 0 ≤ a.floor.val := by
  unfold floor
  split
  · exact Int.le_refl 0
  · next hneg => exact Int.not_lt.1 hneg

theorem round_zero : round 0 = 0 :=
  roundBits_of_lt (by decide)

theorem round_nonneg {v : Int} (h : 0 ≤ v) : 0 ≤ round v := by
  unfold round roundBits
  refine Int.mul_nonneg (le_roundHalfEven (twoTo_pos _) ?_) (Int.natCast_nonneg _)
  simpa using h

variable {column : List Stored}

theorem sum_val_nonneg (h : ∀ a ∈ column, 0 ≤ a.val) : 0 ≤ (column.map (·.val)).sum := by
  apply List.sum_nonneg
  intro v hv
  obtain ⟨a, ha, rfl⟩ := List.mem_map.1 hv
  exact h a ha

/-- A column without negative numbers has a sum, unless its numbers are exact and the sum is
    out of range. -/
theorem exists_sum?_iff (h : ∀ a ∈ column, 0 ≤ a.val) :
    (∃ s, sum? column = some s) ↔
      ((∀ a ∈ column, a.isExact) → (column.map (·.val)).sum < Bound.int64) := by
  have hsum := sum_val_nonneg h
  simp only [sum?, foldl_val, Int.zero_add]
  by_cases hexact : column.all isExact
  · have hall : ∀ a ∈ column, a.isExact := List.all_eq_true.1 hexact
    rw [if_pos hexact, forall_prop_of_true hall]
    unfold Cents.ofInt? Bound.int64
    split
    · next hrange => exact iff_of_true ⟨_, rfl⟩ hrange.2
    · next hrange => exact iff_of_false (by simp) (by omega)
  · have hsome : ¬ ∀ a ∈ column, a.isExact := fun hall => hexact (List.all_eq_true.2 hall)
    rw [if_neg hexact]
    exact iff_of_true ⟨_, rfl⟩ fun hall => absurd hall hsome

/-- A sum is as large as the numbers, or as their rounded sum. -/
theorem val_of_sum? {s : Stored} (hs : sum? column = some s) :
    s.val = (column.map (·.val)).sum ∨ s.val = round (column.map (·.val)).sum := by
  unfold sum? at hs
  dsimp only at hs
  rw [foldl_val, Int.zero_add] at hs
  split at hs
  · obtain ⟨c, hc, rfl⟩ := Option.map_eq_some_iff.1 hs
    exact .inl (Cents.val_of_ofInt? hc)
  · cases hs
    exact .inr rfl

theorem sum?_nonneg (h : ∀ a ∈ column, 0 ≤ a.val) {s : Stored} (hs : sum? column = some s) :
    0 ≤ s.val := by
  have hsum := sum_val_nonneg h
  rcases val_of_sum? hs with hval | hval
  · rw [hval]
    exact hsum
  · rw [hval]
    exact round_nonneg hsum

/-- A sum of zeros is zero. -/
theorem val_of_sum?_zeros (h : ∀ a ∈ column, a.val = 0) {s : Stored}
    (hs : sum? column = some s) : s.val = 0 := by
  have hsum : (column.map (·.val)).sum = 0 := by
    apply List.sum_eq_zero
    intro v hv
    obtain ⟨a, ha, rfl⟩ := List.mem_map.1 hv
    exact h a ha
  have hval := val_of_sum? hs
  rw [hsum, round_zero] at hval
  exact or_self_iff.1 hval

end Stored

/-! ## Sums of a loan -/

/-- What the installment adds to a bucket of the bulk insert; a bucket that is overpaid adds
    nothing. -/
def LiveEntry.added (e : LiveEntry) (i : Bucket) : Stored :=
  (e.outstanding.get i).floor

/-- The sum of one bucket in the bulk insert. -/
def overdueSum (entries : List LiveEntry) (i : Bucket) : Except Error Stored :=
  match Stored.sum? (entries.map (·.added i)) with
  | some sum => .ok sum
  | none => .error (.database (.failure DatabaseError.statement (some "integer overflow")))

theorem overdueSums_eq_ok_iff {entries : List LiveEntry} {sums : Buckets Stored} :
    overdueSums entries = .ok sums ↔
      ∀ i, Stored.sum? (entries.map (·.added i)) = some (sums.get i) := by
  have hmapM : overdueSums entries = (Buckets.tabulate (overdueSum entries)).mapM id := rfl
  rw [hmapM, Buckets.mapM_eq_ok_iff]
  refine forall_congr' fun i => ?_
  rw [Buckets.get_tabulate, overdueSum]
  cases Stored.sum? (entries.map (·.added i)) <;> simp

theorem exists_overdueSums_iff {entries : List LiveEntry} :
    (∃ sums, overdueSums entries = .ok sums) ↔ ∀ i, (∀ e ∈ entries, (e.added i).isExact) →
      (entries.map fun e => (e.added i).val).sum < Bound.int64 := by
  have hcolumn (i : Bucket) : (∃ s, Stored.sum? (entries.map (·.added i)) = some s) ↔
      ((∀ e ∈ entries, (e.added i).isExact) →
        (entries.map fun e => (e.added i).val).sum < Bound.int64) := by
    rw [Stored.exists_sum?_iff, List.forall_mem_map, List.map_map]
    · rfl
    · intro a ha
      obtain ⟨e, -, rfl⟩ := List.mem_map.1 ha
      exact Stored.floor_nonneg _
  simp only [overdueSums_eq_ok_iff, ← hcolumn]
  constructor
  · rintro ⟨sums, hsums⟩ i
    exact ⟨sums.get i, hsums i⟩
  · intro h
    choose s hs using h
    exact ⟨.tabulate s, fun i => (hs i).trans (congrArg some (Buckets.get_tabulate s i).symm)⟩

/-- Without a date of principal outstanding there is no principal in the sums. -/
theorem principal_of_overdueSince?_eq_none {entries : List LiveEntry} {sums : Buckets Stored}
    (hsums : overdueSums entries = .ok sums) (hsince : overdueSince? entries = none) :
    sums.principal.val = 0 := by
  have hempty : entries.filter (0 < ·.outstanding.principal.val) = [] := by
    unfold overdueSince? at hsince
    rcases List.eq_nil_or_concat' (entries.filter (0 < ·.outstanding.principal.val)) with h | h
    · exact h
    · obtain ⟨others, last, h⟩ := h
      rw [h, List.map_append, List.foldl_append] at hsince
      cases hsince
  refine Stored.val_of_sum?_zeros ?_ (overdueSums_eq_ok_iff.1 hsums .principal)
  intro a ha
  obtain ⟨e, he, rfl⟩ := List.mem_map.1 ha
  have hnone : ¬ 0 < (e.outstanding.get .principal).val := fun hpos =>
    List.filter_eq_nil_iff.1 hempty e he (decide_eq_true hpos)
  unfold LiveEntry.added Stored.floor
  split
  · rfl
  · omega

/-- An entry made of sums passes its checks when the stored buckets add up to the total. -/
theorem check_overdueSums_iff {entries : List LiveEntry} {sums : Buckets Stored}
    (hsums : overdueSums entries = .ok sums) (hpos : 0 < sums.principal.val) (since : Date) :
    (ArrearsEntry.mk (sums.map Stored.settle) sums.storedSum.settle since).check = .ok () ↔
      (sums.map Stored.settle).storedSum.val = sums.storedSum.val := by
  rw [ArrearsEntry.check_eq_ok_iff, Stored.val_settle]
  have hnonneg (i : Bucket) : 0 ≤ ((sums.map Stored.settle).get i).val := by
    rw [Buckets.get_map, Stored.val_settle]
    refine Stored.sum?_nonneg ?_ (overdueSums_eq_ok_iff.1 hsums i)
    intro a ha
    obtain ⟨e, -, rfl⟩ := List.mem_map.1 ha
    exact Stored.floor_nonneg _
  have hprincipal : 0 < (sums.map Stored.settle).principal.val := by
    show 0 < sums.principal.settle.val
    rw [Stored.val_settle]
    exact hpos
  exact ⟨fun h => h.2.2.symm, fun h => ⟨hprincipal, hnonneg, h.symm⟩⟩

/-! ## Loans that add up -/

namespace Loan

/-- What the loan has outstanding can be added up and stored. -/
structure AddsUp (l : Loan) (cutoff : Option String) : Prop where
  /-- A bucket of exact numbers stays in range. -/
  buckets : ∀ i, (∀ e ∈ l.overdueByText cutoff, (e.added i).isExact) →
    ((l.overdueByText cutoff).map fun e => (e.added i).val).sum < Bound.int64
  /-- The buckets in the table add up to the total, if the loan is in arrears. -/
  total : ∀ sums, overdueSums (l.overdueByText cutoff) = .ok sums → 0 < sums.principal.val →
    (sums.map Stored.settle).storedSum.val = sums.storedSum.val

/-- The entry of the bulk insert, checked. -/
def checkedBulkEntry (l : Loan) (cutoff : Option String) : Except Error (Option ArrearsEntry) := do
  match ← l.bulkEntry? cutoff with
  | some e =>
    e.check
    return some e
  | none => return none

/-- The entry of a loan can be made exactly when what the loan has outstanding adds up. -/
theorem exists_checkedBulkEntry_iff (l : Loan) (cutoff : Option String) :
    (∃ e, l.checkedBulkEntry cutoff = .ok e) ↔ l.AddsUp cutoff := by
  unfold checkedBulkEntry
  cases hsums : overdueSums (l.overdueByText cutoff) with
  | error e =>
    have hnone : ¬ ∃ sums, overdueSums (l.overdueByText cutoff) = .ok sums := by
      rintro ⟨sums, hok⟩
      rw [hsums] at hok
      cases hok
    rw [bulkEntry?_of_overdueSums_error hsums]
    refine iff_of_false ?_ fun h => hnone (exists_overdueSums_iff.2 h.buckets)
    rintro ⟨entry, hok⟩
    cases hok
  | ok sums =>
    -- The buckets add up, so only the total can be refused.
    have hbuckets := exists_overdueSums_iff.1 ⟨sums, hsums⟩
    have htotal : l.AddsUp cutoff ↔
        (0 < sums.principal.val → (sums.map Stored.settle).storedSum.val = sums.storedSum.val) := by
      refine ⟨fun h => h.total sums hsums, fun h => ⟨hbuckets, fun sums' hsums' => ?_⟩⟩
      rw [hsums] at hsums'
      cases hsums'
      exact h
    rw [htotal, bulkEntry?_of_overdueSums hsums]
    cases hsince : overdueSince? (l.overdueByText cutoff) with
    | none =>
      have hzero := principal_of_overdueSince?_eq_none hsums hsince
      exact iff_of_true ⟨none, rfl⟩ fun hpos => absurd hzero (Int.ne_of_gt hpos)
    | some since =>
      by_cases hpos : 0 < sums.principal.val
      · simp only [hpos, if_true, true_implies, bind, Except.bind, pure, Except.pure]
        rw [← check_overdueSums_iff hsums hpos since]
        cases (ArrearsEntry.mk (sums.map Stored.settle) sums.storedSum.settle since).check <;> simp
      · simp only [hpos, if_false, false_implies]
        exact iff_of_true ⟨none, rfl⟩ trivial

end Loan

namespace Book

/-- All loans that the bulk insert ages add up. -/
def AddsUp (b : Book) (today : Date) : Prop :=
  ∀ id l p, b.loans.find? id = some l → b.products.find? l.product = some p →
    l.isAgedInBulk p → l.AddsUp (today.cutoffText? (l.graceOf p))

variable {b : Book} {today : Date} {l : Loan} {p : Product}

theorem bulkEntryOf_eq_checkedBulkEntry (hp : b.products.find? l.product = some p)
    (haged : l.isAgedInBulk p) :
    b.bulkEntryOf today l = l.checkedBulkEntry (today.cutoffText? (l.graceOf p)) := by
  unfold bulkEntryOf
  rw [hp]
  exact if_pos haged

theorem bulkEntryOf_of_not_isAgedInBulk
    (h : ∀ p, b.products.find? l.product = some p → ¬ l.isAgedInBulk p) :
    b.bulkEntryOf today l = .ok none := by
  unfold bulkEntryOf
  cases hp : b.products.find? l.product with
  | none => rfl
  | some p => exact if_neg (h p hp)

/-- The bulk insert accepts a book exactly when its loans add up. -/
theorem bulkAccepts_iff (b : Book) (today : Date) : b.BulkAccepts today ↔ b.AddsUp today := by
  constructor
  · intro h id l p hl hp haged
    rw [← l.exists_checkedBulkEntry_iff, ← bulkEntryOf_eq_checkedBulkEntry hp haged]
    exact h id l hl
  · intro h id l hl
    by_cases haged : ∃ p, b.products.find? l.product = some p ∧ l.isAgedInBulk p
    · obtain ⟨p, hp, haged⟩ := haged
      rw [bulkEntryOf_eq_checkedBulkEntry hp haged, l.exists_checkedBulkEntry_iff]
      exact h id l p hl hp haged
    · exact ⟨none, bulkEntryOf_of_not_isAgedInBulk fun p hp haged' => haged ⟨p, hp, haged'⟩⟩

end Book

end LoanArrears
