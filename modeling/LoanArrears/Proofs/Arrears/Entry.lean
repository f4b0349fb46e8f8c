-- SUMMARY: The entry that a write leaves in the arrears table: when there is one, what it records, and why a write is refused.
import LoanArrears.Book.Arrears
import LoanArrears.Proofs.Arrears.Outstanding

/-!
# Entries of the arrears table

`ArrearsWrite.entryLeft` is what a write leaves under its loan: an entry, nothing, or the error
with which the write is refused. An entry `Records` a list of outstanding installments if it
has their sums, the sum of those and the oldest date. There is one such entry, and it passes
its checks.
-/

namespace LoanArrears

/-- What the write leaves under its loan. -/
def ArrearsWrite.entryLeft : ArrearsWrite → Except Fault (Option ArrearsEntry)
  | .upsert a => do
    let e ← a.prepare
    e.check
    return some e
  | .delete _ => .ok none

/-- The fault is an error in the data of one loan. -/
def Fault.IsData : Fault → Prop
  | .error e => e.class = .data
  | .crash _ => False

theorem Stored.add_exact_of_val {a b c : Cents} (h : a.val + b.val = c.val) :
    Stored.add (.exact a) (.exact b) = .exact c :=
  Stored.add_exact (h ▸ Cents.ofInt?_val c)

theorem Cents.ext_val {a b : Cents} (h : a.val = b.val) : a = b := by
  cases a
  cases b
  cases h
  rfl

theorem Cents.exists_of_lt {n : Nat} (h : n < Bound.int64) :
    ∃ c : Cents, Cents.ofInt? n = some c ∧ c.val = n := by
  have hrange : (-9223372036854775808 : Int) ≤ n ∧ (n : Int) < 9223372036854775808 := by
    unfold Bound.int64 at h
    omega
  exact ⟨⟨n, hrange.1, hrange.2⟩, dif_pos hrange, rfl⟩

/-! ## Recorded entries -/

namespace ArrearsEntry

/-- The entry has the sums of what is outstanding, their sum and the oldest date. -/
structure Records (e : ArrearsEntry) (os : List Outstanding) : Prop where
  overdue : ∀ i, ∃ c : Cents, e.overdue.get i = .exact c ∧ c.val = Outstanding.sum os i
  total : ∃ c : Cents, e.total = .exact c ∧ c.val = Outstanding.total os
  isOldest : Date.IsOldest (Outstanding.principalDates os) (some e.since)

theorem Records.unique {e e' : ArrearsEntry} {os : List Outstanding} (h : e.Records os)
    (h' : e'.Records os) : e = e' := by
  have hoverdue : e.overdue = e'.overdue := by
    apply Buckets.ext_get
    intro i
    obtain ⟨c, hc, hval⟩ := h.overdue i
    obtain ⟨c', hc', hval'⟩ := h'.overdue i
    rw [hc, hc', Cents.ext_val (hval.trans hval'.symm)]
  have htotal : e.total = e'.total := by
    obtain ⟨c, hc, hval⟩ := h.total
    obtain ⟨c', hc', hval'⟩ := h'.total
    rw [hc, hc', Cents.ext_val (hval.trans hval'.symm)]
  have hsince : e.since = e'.since :=
    Option.some.inj (h.isOldest.unique h'.isOldest fun d => Iff.rfl)
  cases e
  cases e'
  cases hoverdue
  cases htotal
  cases hsince
  rfl

/-- Sums of amounts that are not negative stay exact as long as the last one does. -/
theorem storedSum_eq_exact {b : Buckets Stored} {n : Buckets Nat} {total : Cents}
    (hb : ∀ i, ∃ c : Cents, b.get i = .exact c ∧ c.val = n.get i)
    (htotal : total.val = n.principal + n.interest + n.fee + n.penalty) :
    b.storedSum = .exact total := by
  obtain ⟨p, hp, hpval⟩ := hb .principal
  obtain ⟨i, hi, hival⟩ := hb .interest
  obtain ⟨f, hf, hfval⟩ := hb .fee
  obtain ⟨l, hl, hlval⟩ := hb .penalty
  simp only [Buckets.get] at hp hi hf hl hpval hival hfval hlval
  have hlt := total.lt_hi
  obtain ⟨s, -, hs⟩ := Cents.exists_of_lt (n := n.principal + n.interest)
    (by unfold Bound.int64; omega)
  obtain ⟨s', -, hs'⟩ := Cents.exists_of_lt (n := n.principal + n.interest + n.fee)
    (by unfold Bound.int64; omega)
  rw [Buckets.storedSum, hp, hi, hf, hl, Stored.add_exact_of_val (c := s) (by omega),
    Stored.add_exact_of_val (c := s') (by omega), Stored.add_exact_of_val (c := total) (by omega)]

/-- Buckets that hold the sums of what is outstanding add up to its total. -/
theorem storedSum_of_sums {b : Buckets Stored} {os : List Outstanding}
    (hb : ∀ i, ∃ c : Cents, b.get i = .exact c ∧ c.val = Outstanding.sum os i) {total : Cents}
    (htotal : total.val = Outstanding.total os) : b.storedSum = .exact total := by
  apply storedSum_eq_exact (n := Buckets.tabulate (Outstanding.sum os))
  · intro i
    rw [Buckets.get_tabulate]
    exact hb i
  · rw [htotal]
    simp [Outstanding.total, Buckets.tabulate]

theorem principal_pos_of_sums {b : Buckets Stored} {os : List Outstanding} {since : Date}
    (hb : ∀ i, ∃ c : Cents, b.get i = .exact c ∧ c.val = Outstanding.sum os i)
    (hold : Date.IsOldest (Outstanding.principalDates os) (some since)) :
    0 < b.principal.val := by
  have hpos : 0 < Outstanding.sum os .principal :=
    (Outstanding.sum_principal_pos_iff os).2 (List.ne_nil_of_mem hold.1)
  obtain ⟨c, hc, hval⟩ := hb .principal
  rw [show b.principal = .exact c from hc]
  show 0 < c.val
  omega

/-- An entry passes its checks when no bucket is negative, there is principal, and the buckets
    add up to the total. -/
theorem check_eq_ok_iff {e : ArrearsEntry} :
    e.check = .ok () ↔ 0 < e.overdue.principal.val ∧ (∀ i, 0 ≤ (e.overdue.get i).val) ∧
      e.total.val = e.overdue.storedSum.val := by
  have hchecks : (∀ c ∈ e.checks, c.2 = true) ↔ 0 < e.overdue.principal.val ∧
      0 ≤ e.overdue.interest.val ∧ 0 ≤ e.overdue.fee.val ∧ 0 ≤ e.overdue.penalty.val ∧
      e.total.val = e.overdue.storedSum.val := by
    simp [checks]
  have hfind : e.check = .ok () ↔ ∀ c ∈ e.checks, c.2 = true := by
    have hnone : e.checks.find? (!·.2) = none ↔ ∀ c ∈ e.checks, c.2 = true := by
      simp [List.find?_eq_none]
    rw [← hnone]
    unfold check
    cases e.checks.find? (!·.2) <;> simp
  rw [hfind, hchecks]
  constructor
  · rintro ⟨hprincipal, hinterest, hfee, hpenalty, htotal⟩
    refine ⟨hprincipal, fun i => ?_, htotal⟩
    cases i with
    | principal => exact Int.le_of_lt hprincipal
    | interest => exact hinterest
    | fee => exact hfee
    | penalty => exact hpenalty
  · rintro ⟨hprincipal, hnonneg, htotal⟩
    exact ⟨hprincipal, hnonneg .interest, hnonneg .fee, hnonneg .penalty, htotal⟩

theorem Records.check {e : ArrearsEntry} {os : List Outstanding} (h : e.Records os) :
    e.check = .ok () := by
  have hnonneg (i : Bucket) : 0 ≤ (e.overdue.get i).val := by
    obtain ⟨c, hc, hval⟩ := h.overdue i
    rw [hc]
    show 0 ≤ c.val
    omega
  have htotal : e.total.val = e.overdue.storedSum.val := by
    obtain ⟨c, hc, hval⟩ := h.total
    rw [hc, storedSum_of_sums h.overdue hval]
  exact check_eq_ok_iff.2 ⟨principal_pos_of_sums h.overdue h.isOldest, hnonneg, htotal⟩

end ArrearsEntry

namespace Outstanding

/-- What the installments leave in the table: an entry that records them, or none if no
    principal is outstanding. -/
def Leaves (os : List Outstanding) : Option ArrearsEntry → Prop
  | some e => e.Records os
  | none => principalDates os = []

theorem Leaves.unique {os : List Outstanding} {e e' : Option ArrearsEntry} (h : Leaves os e)
    (h' : Leaves os e') : e = e' := by
  cases e with
  | none =>
    cases e' with
    | none => rfl
    | some e' => exact absurd h (List.ne_nil_of_mem h'.isOldest.1)
  | some e =>
    cases e' with
    | none => exact absurd h' (List.ne_nil_of_mem h.isOldest.1)
    | some e' => rw [ArrearsEntry.Records.unique h h']

end Outstanding

/-! ## Entries of writes -/

theorem Decimal.class_of_toCents_eq_error {a : Decimal} {e : Error} (h : a.toCents = .error e) :
    e.class = .data := by
  unfold Decimal.toCents at h
  split at h
  · cases h
  · cases h
    rfl

/-- Amounts of cents in range add up without a crash. -/
theorem Amounts.exists_total {b : Amounts} {n : Bucket → Nat} (h : ∀ i, (b.get i).IsCents (n i))
    (hfits : ∀ i, n i < Bound.int64) :
    ∃ d, b.total = .ok d ∧
      d.IsCents (n .principal + n .interest + n .fee + n .penalty : Nat) := by
  have hp := hfits .principal
  have hi := hfits .interest
  have hf := hfits .fee
  have hl := hfits .penalty
  unfold Bound.int64 at hp hi hf hl
  have hlimit {n : Int} (h₁ : 0 ≤ n) (h₂ : n < 4 * 9223372036854775808) :
      n.natAbs < Decimal.coeffLimit := by
    unfold Decimal.coeffLimit Bound.nat96
    omega
  obtain ⟨d₁, hd₁, hc₁⟩ := (h .principal).exists_add (h .interest)
    (hlimit (by omega) (by omega))
  obtain ⟨d₂, hd₂, hc₂⟩ := hc₁.exists_add (h .fee) (hlimit (by omega) (by omega))
  obtain ⟨d₃, hd₃, hc₃⟩ := hc₂.exists_add (h .penalty) (hlimit (by omega) (by omega))
  refine ⟨d₃, ?_, ?_⟩
  · simp only [Buckets.get] at hd₁ hd₂ hd₃
    simp only [Amounts.total, hd₁, bind, Except.bind, hd₂, hd₃]
  · exact_mod_cast hc₃

/-- Amounts of cents in range are brought to these cents. -/
theorem Amounts.exists_toCents {b : Amounts} {n : Bucket → Nat} (h : ∀ i, (b.get i).IsCents (n i))
    (hfits : ∀ i, n i < Bound.int64) :
    ∃ c : Buckets Cents, Amounts.toCents b = .ok c ∧ ∀ i, (c.get i).val = n i := by
  unfold Amounts.toCents
  apply Buckets.exists_mapM_eq_ok (p := fun i (c : Cents) => c.val = n i)
  intro i
  obtain ⟨c, hc, hval⟩ := Cents.exists_of_lt (hfits i)
  refine ⟨c, ?_, hval⟩
  rw [Decimal.toCents, (h i).toCents?_eq, hc]

namespace Totals.Counts

variable {t : Totals} {os : List Outstanding}

/-- The buckets in cents, if they are in range. -/
theorem toCents_eq_ok (h : t.Counts os) (hfits : ∀ i, Outstanding.sum os i < Bound.int64) :
    ∃ c : Buckets Cents, Amounts.toCents t.overdue = .ok c ∧
      ∀ i, (c.get i).val = Outstanding.sum os i :=
  Amounts.exists_toCents h.isCents hfits

/-- Buckets in range add up without a crash. -/
theorem exists_total (h : t.Counts os) (hfits : ∀ i, Outstanding.sum os i < Bound.int64) :
    ∃ d, t.total = .ok d ∧ d.IsCents (Outstanding.total os) :=
  Amounts.exists_total h.isCents hfits

/-- Without a date the loan has no entry. -/
theorem entryLeft_of_since_eq_none (hsince : t.since = none) (loan : LoanId) :
    (ArrearsWrite.ofTotals loan t).entryLeft = .ok none := by
  rw [ArrearsWrite.ofTotals_of_since_eq_none hsince]
  rfl

theorem ofTotals_of_since (h : t.Counts os) {since : Date} (hsince : t.since = some since)
    (loan : LoanId) : ArrearsWrite.ofTotals loan t = .upsert ⟨loan, t.overdue, since⟩ := by
  have harrears : t.inArrears = true := by rw [h.inArrears_eq, hsince]; rfl
  rw [ArrearsWrite.ofTotals, hsince]
  simp only [harrears, if_true]

/-- The position of a write is that of the totals, since their date. -/
theorem exists_since (h : t.Counts os) {loan : LoanId} {a : ArrearsPosition}
    (ha : .upsert a = ArrearsWrite.ofTotals loan t) :
    ∃ since, t.since = some since ∧ a = ⟨loan, t.overdue, since⟩ := by
  cases hsince : t.since with
  | none =>
    rw [ArrearsWrite.ofTotals_of_since_eq_none hsince] at ha
    cases ha
  | some since =>
    rw [h.ofTotals_of_since hsince] at ha
    cases ha
    exact ⟨since, rfl, rfl⟩

/-- A position in range has an entry that records what is outstanding. -/
theorem exists_entryLeft (h : t.Counts os) {since : Date} (hsince : t.since = some since)
    (htotal : Outstanding.total os < Bound.int64) (loan : LoanId) :
    ∃ e : ArrearsEntry, (ArrearsWrite.ofTotals loan t).entryLeft = .ok (some e) ∧ e.Records os := by
  have hfits (i : Bucket) : Outstanding.sum os i < Bound.int64 :=
    Nat.lt_of_le_of_lt (Outstanding.sum_le_total os i) htotal
  obtain ⟨cents, hcents, hvals⟩ := h.toCents_eq_ok hfits
  obtain ⟨d, hd, hdcents⟩ := h.exists_total hfits
  obtain ⟨c, hc, hcval⟩ := Cents.exists_of_lt htotal
  have hdtoCents : d.toCents = .ok c := by
    rw [Decimal.toCents, hdcents.toCents?_eq, hc]
  let e : ArrearsEntry := ⟨exactly cents, .exact c, since⟩
  have hprepare : ArrearsPosition.prepare ⟨loan, t.overdue, since⟩ = .ok e := by
    have hd' : ArrearsPosition.total ⟨loan, t.overdue, since⟩ = .ok d := hd
    unfold ArrearsPosition.prepare
    rw [hcents, hd']
    simp only [liftM, monadLift, MonadLift.monadLift, bind, Except.bind, hdtoCents]
    rfl
  have hrecords : e.Records os := by
    refine ⟨?_, ⟨c, rfl, hcval⟩, hsince ▸ h.isOldest⟩
    intro i
    refine ⟨cents.get i, ?_, hvals i⟩
    exact Buckets.get_map _ _ _
  refine ⟨e, ?_, hrecords⟩
  rw [h.ofTotals_of_since hsince, ArrearsWrite.entryLeft, hprepare]
  simp only [bind, Except.bind, hrecords.check]
  rfl

/-- The write of totals in range leaves what was counted. -/
theorem exists_leaves (h : t.Counts os) (htotal : Outstanding.total os < Bound.int64)
    (loan : LoanId) :
    ∃ e, (ArrearsWrite.ofTotals loan t).entryLeft = .ok e ∧ Outstanding.Leaves os e := by
  cases hsince : t.since with
  | none =>
    refine ⟨none, entryLeft_of_since_eq_none hsince loan, ?_⟩
    have hold := h.isOldest
    rw [hsince] at hold
    exact hold
  | some since =>
    obtain ⟨e, he, hrecords⟩ := h.exists_entryLeft hsince htotal loan
    exact ⟨some e, he, hrecords⟩

/-- A position out of range is refused as bad data of its loan; it never crashes. -/
theorem prepare_eq_error (h : t.Counts os) (htotal : Bound.int64 ≤ Outstanding.total os)
    (loan : LoanId) (since : Date) :
    ∃ e : Error, ArrearsPosition.prepare ⟨loan, t.overdue, since⟩ = .error (.error e) ∧
      e.class = .data := by
  unfold ArrearsPosition.prepare
  cases hcents : Amounts.toCents t.overdue with
  | error e =>
    obtain ⟨i, hi⟩ := Buckets.mapM_eq_error hcents
    exact ⟨e, rfl, Decimal.class_of_toCents_eq_error hi⟩
  | ok cents =>
    have hfits (i : Bucket) : Outstanding.sum os i < Bound.int64 := by
      have hi : (t.overdue.get i).toCents = .ok (cents.get i) := Buckets.mapM_eq_ok_iff.1 hcents i
      unfold Decimal.toCents at hi
      rw [(h.isCents i).toCents?_eq] at hi
      split at hi
      · next c hc =>
        have hlt := c.lt_hi
        rw [Cents.val_of_ofInt? hc] at hlt
        unfold Bound.int64
        omega
      · cases hi
    obtain ⟨d, hd, hdcents⟩ := h.exists_total hfits
    have hd' : ArrearsPosition.total ⟨loan, t.overdue, since⟩ = .ok d := hd
    have hnone : Cents.ofInt? (Outstanding.total os) = none := by
      unfold Bound.int64 at htotal
      exact dif_neg (by omega)
    have hout : d.toCents = .error (.amountOutOfRange d) := by
      rw [Decimal.toCents, hdcents.toCents?_eq, hnone]
    refine ⟨.amountOutOfRange d, ?_, rfl⟩
    rw [hd']
    simp only [liftM, monadLift, MonadLift.monadLift, bind, Except.bind, hout]

theorem entryLeft_eq_error (h : t.Counts os) {since : Date} (hsince : t.since = some since)
    (htotal : Bound.int64 ≤ Outstanding.total os) (loan : LoanId) :
    ∃ e : Error, (ArrearsWrite.ofTotals loan t).entryLeft = .error (.error e) ∧
      e.class = .data := by
  obtain ⟨e, hprepare, hdata⟩ := h.prepare_eq_error htotal loan since
  refine ⟨e, ?_, hdata⟩
  rw [h.ofTotals_of_since hsince, ArrearsWrite.entryLeft, hprepare]
  rfl

/-- The write of counted totals leaves an entry, nothing, or is refused for its data. -/
theorem isData_of_entryLeft_eq_error (h : t.Counts os) {loan : LoanId} {f : Fault}
    (hf : (ArrearsWrite.ofTotals loan t).entryLeft = .error f) : f.IsData := by
  cases hsince : t.since with
  | none =>
    rw [entryLeft_of_since_eq_none hsince] at hf
    cases hf
  | some since =>
    by_cases htotal : Outstanding.total os < Bound.int64
    · obtain ⟨e, he, -⟩ := h.exists_entryLeft hsince htotal loan
      rw [he] at hf
      cases hf
    · obtain ⟨e, he, hdata⟩ := h.entryLeft_eq_error hsince (Nat.not_lt.1 htotal) loan
      rw [he] at hf
      cases hf
      exact hdata

end Totals.Counts

end LoanArrears
