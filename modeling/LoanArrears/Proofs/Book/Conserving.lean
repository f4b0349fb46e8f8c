-- SUMMARY: Entries of the arrears table conserve their total: what is written passes its checks, and what can be read is exact and adds up.
import LoanArrears.Proofs.Book.StoredSum
import LoanArrears.Proofs.Book.Writes

/-!
# Conservation

An entry gets into the table by a write or by the bulk insert, checked in both cases. So its
principal is positive, no bucket is negative, and the total is the sum of the buckets as the table
adds them up. A total in range is exact, and so are its buckets: the entry can be read, and the
row conserves its total. A total out of range cannot be read. Only the bulk insert leaves one.
-/

namespace LoanArrears

/-! ## Reading lists -/

section Reading

variable {ε α β γ : Type} {f : α → Except ε β} {xs : List α}

/-- What holds of each answer and the member it is for holds along the lists. -/
theorem map_eq_of_mapM_eq_ok {ys : List β} {g : β → γ} {k : α → γ} {p : β → Prop}
    (h : xs.mapM f = .ok ys) (hf : ∀ x ∈ xs, ∀ y, f x = .ok y → g y = k x ∧ p y) :
    ys.map g = xs.map k ∧ ∀ y ∈ ys, p y := by
  induction xs generalizing ys with
  | nil =>
    cases h
    exact ⟨rfl, List.forall_mem_nil _⟩
  | cons x xs ih =>
    rw [List.mapM_cons] at h
    obtain ⟨y, hy, h⟩ := exists_of_bind_eq_ok h
    obtain ⟨others, hothers, h⟩ := exists_of_bind_eq_ok h
    cases h
    obtain ⟨hg, hp⟩ := hf x List.mem_cons_self y hy
    obtain ⟨hmap, hall⟩ := ih hothers fun x' hx' => hf x' (List.mem_cons_of_mem _ hx')
    exact ⟨by rw [List.map_cons, List.map_cons, hg, hmap], List.forall_mem_cons.2 ⟨hp, hall⟩⟩

end Reading

/-! ## Entries -/

/-- The principal of the row is positive, no bucket is negative, and the total is their sum. -/
structure AgingRow.IsConserved (r : AgingRow) : Prop where
  principal : r.overdue.principal.isPositive
  nonneg : r.overdue.anyNegative = false
  total : ∃ total, r.overdue.total = .ok total ∧ r.total.eqv total

namespace ArrearsEntry

/-- The entry passes its checks, and its numbers are as columns keep them. -/
structure IsKept (e : ArrearsEntry) : Prop where
  check : e.check = .ok ()
  overdue : ∀ i, (e.overdue.get i).IsSettled
  total : e.total.IsSettled

variable {e : ArrearsEntry}

/-- The total is the sum of the buckets, or both are out of range. -/
theorem IsKept.standsFor_total (h : e.IsKept) : e.total.StandsFor e.overdue.exactSum := by
  obtain ⟨-, hnonneg, htotal⟩ := check_eq_ok_iff.1 h.check
  rcases Buckets.standsFor_storedSum h.overdue hnonneg with ⟨sum, hsum, hval⟩ | ⟨hlarge, hsum⟩
  · have hstored : e.overdue.storedSum.val = sum.val := by
      rw [hsum]
      rfl
    have hsumnonneg : 0 ≤ e.overdue.exactSum :=
      Int.add_nonneg (Int.add_nonneg (Int.add_nonneg (hnonneg .principal) (hnonneg .interest))
        (hnonneg .fee)) (hnonneg .penalty)
    have hlt := sum.lt_hi
    obtain ⟨total, htotalexact⟩ := h.total.exists_of_lt (by omega) (by unfold Bound.int64; omega)
    refine .inl ⟨total, htotalexact, ?_⟩
    rw [htotalexact] at htotal
    exact (htotal.trans hstored).trans hval
  · exact .inr ⟨htotal ▸ hlarge, hsum⟩

/-- With a total in range all numbers of the entry are exact, and they add up. -/
theorem IsKept.exists_cents (h : e.IsKept) (hlt : e.overdue.exactSum < Bound.int64) :
    ∃ (n : Buckets Nat) (c : Buckets Cents) (sum : Cents), e.overdue = c.map .exact ∧
      e.total = .exact sum ∧ 0 < n.principal ∧ (∀ i, (c.get i).val = n.get i) ∧
      sum.val = (n.principal + n.interest + n.fee + n.penalty : Nat) := by
  obtain ⟨hpos, hnonneg, -⟩ := check_eq_ok_iff.1 h.check
  rcases h.standsFor_total with ⟨sum, htotal, hsum⟩ | ⟨-, hle⟩
  · have hp := hnonneg .principal
    have hi := hnonneg .interest
    have hf := hnonneg .fee
    have hl := hnonneg .penalty
    simp only [Buckets.get] at hp hi hf hl
    unfold Buckets.exactSum at hsum hlt
    have hexact (i : Bucket) : ∃ c, e.overdue.get i = .exact c := by
      refine (h.overdue i).exists_of_lt (hnonneg i) ?_
      cases i <;> simp only [Buckets.get] <;> omega
    choose c hc using hexact
    let n : Buckets Nat := .tabulate fun i => (e.overdue.get i).val.toNat
    refine ⟨n, .tabulate c, sum, ?_, htotal, ?_, fun i => ?_, ?_⟩
    · apply Buckets.ext_get
      intro i
      rw [hc, Buckets.get_map, Buckets.get_tabulate]
    · show 0 < e.overdue.principal.val.toNat
      omega
    · have hget := hnonneg i
      rw [hc i] at hget
      rw [Buckets.get_tabulate, Buckets.get_tabulate, hc i]
      exact (Int.toNat_of_nonneg hget).symm
    · simp only [n, Buckets.tabulate, Buckets.get]
      omega
  · omega

/-- An entry with a total in range is read as a row that conserves it. -/
theorem IsKept.exists_read (h : e.IsKept) (hlt : e.overdue.exactSum < Bound.int64) (id : LoanId) :
    ∃ r, e.read id = .ok r ∧ r.loan = id ∧ r.IsConserved := by
  obtain ⟨n, c, sum, hoverdue, htotal, hpos, hval, hsum⟩ := h.exists_cents hlt
  have hread : e.overdue.readStored 1 columns = .ok c := Buckets.readStored_eq_ok_iff.2 hoverdue
  have hcents (i : Bucket) : ((Amounts.ofCents c).get i).IsCents (n.get i) := by
    rw [Amounts.ofCents, Buckets.get_map, ← hval]
    exact Decimal.isCents_ofCents _
  have hfits (i : Bucket) : n.get i < Bound.int64 := by
    have hlt := (c.get i).lt_hi
    have hi := hval i
    unfold Bound.int64
    omega
  refine ⟨⟨id, Amounts.ofCents c, .ofCents sum, e.since⟩, ?_, rfl, ?_, ?_, ?_⟩
  · unfold read
    rw [hread, htotal]
    rfl
  · exact (hcents .principal).isPositive_iff.2 (Int.natCast_pos.2 hpos)
  · have hnone : ∀ a ∈ (Amounts.ofCents c).toList, ¬ a.isNegative := by
      refine Buckets.forall_mem_toList.2 fun i hneg => ?_
      have hlt := (hcents i).isNegative_iff.1 hneg
      omega
    simpa [Amounts.anyNegative] using hnone
  · obtain ⟨d, hd, hdcents⟩ := Amounts.exists_total hcents hfits
    refine ⟨d, hd, ?_⟩
    apply Decimal.IsCents.eqv_ofCents
    rw [hsum]
    exact hdcents

/-- An entry with a total out of range cannot be read. -/
theorem read_ne_ok_of_int64_le (h : Bound.int64 ≤ e.total.val) (id : LoanId) (r : AgingRow) :
    e.read id ≠ .ok r := by
  intro hread
  unfold read at hread
  obtain ⟨overdue, -, hread⟩ := exists_of_bind_eq_ok hread
  obtain ⟨total, htotal, -⟩ := exists_of_bind_eq_ok hread
  cases hstored : e.total with
  | exact c => exact Stored.not_isExact_of_int64_le h (hstored ▸ rfl)
  | approx v =>
    rw [hstored] at htotal
    cases htotal

theorem IsKept.exists_read_iff (h : e.IsKept) (id : LoanId) :
    (∃ r, e.read id = .ok r) ↔ e.overdue.exactSum < Bound.int64 := by
  constructor
  · rintro ⟨r, hr⟩
    rw [← h.standsFor_total.lt_iff]
    exact Int.not_le.1 fun hle => read_ne_ok_of_int64_le hle id r hr
  · intro hlt
    obtain ⟨r, hr, -⟩ := h.exists_read hlt id
    exact ⟨r, hr⟩

end ArrearsEntry

/-! ## What writes leave -/

/-- An entry that a write leaves is made of cents. -/
theorem ArrearsWrite.exists_of_entryLeft {w : ArrearsWrite} {e : ArrearsEntry}
    (h : w.entryLeft = .ok (some e)) :
    ∃ (c : Buckets Cents) (sum : Cents) (since : Date), e = ⟨exactly c, .exact sum, since⟩ ∧
      e.check = .ok () := by
  cases w with
  | delete loan => cases h
  | upsert a =>
    unfold entryLeft at h
    obtain ⟨e', hprepare, h⟩ := exists_of_bind_eq_ok h
    cases hcheck : e'.check with
    | error err =>
      rw [hcheck] at h
      cases h
    | ok u =>
      rw [hcheck] at h
      cases h
      unfold ArrearsPosition.prepare at hprepare
      obtain ⟨c, -, hprepare⟩ := exists_of_bind_eq_ok hprepare
      obtain ⟨total, -, hprepare⟩ := exists_of_bind_eq_ok hprepare
      obtain ⟨sum, -, hprepare⟩ := exists_of_bind_eq_ok hprepare
      cases hprepare
      exact ⟨c, sum, a.since, rfl, hcheck⟩

/-- The entry that the bulk insert makes of a loan is checked, and settled in its columns. -/
theorem Book.isKept_of_bulkEntryOf {b : Book} {today : Date} {l : Loan} {e : ArrearsEntry}
    (h : b.bulkEntryOf today l = .ok (some e)) : e.IsKept := by
  cases hp : b.products.find? l.product with
  | none =>
    unfold bulkEntryOf at h
    rw [hp] at h
    cases h
  | some p =>
    by_cases haged : l.isAgedInBulk p
    · rw [bulkEntryOf_eq_checkedBulkEntry hp haged] at h
      unfold Loan.checkedBulkEntry at h
      obtain ⟨entry, hentry, h⟩ := exists_of_bind_eq_ok h
      cases entry with
      | none => cases h
      | some entry =>
        obtain ⟨u, hcheck, h⟩ := exists_of_bind_eq_ok h
        cases h
        cases hsums : overdueSums (l.overdueByText (today.cutoffText? (l.graceOf p))) with
        | error err =>
          rw [Loan.bulkEntry?_of_overdueSums_error hsums] at hentry
          cases hentry
        | ok sums =>
          rw [Loan.bulkEntry?_of_overdueSums hsums] at hentry
          split at hentry
          · split at hentry
            · cases hentry
              refine ⟨hcheck, fun i => ?_, Stored.isSettled_settle _⟩
              rw [Buckets.get_map]
              exact Stored.isSettled_settle _
            · cases hentry
          · cases hentry
    · rw [bulkEntryOf_of_not_isAgedInBulk] at h
      · cases h
      · intro p' hp' haged'
        rw [hp] at hp'
        cases hp'
        exact haged haged'

/-- How an entry gets under a loan: a write leaves it, or a bulk insert over a built book. -/
inductive ArrearsEntry.IsWritten (id : LoanId) (e : ArrearsEntry) : Prop where
  | write (w : ArrearsWrite) (left : w.entryLeft = .ok (some e))
  | bulk (b : Book) (today : Date) (built : b.IsBuilt) (inserted : b.bulkRow? today id = some e)

namespace ArrearsEntry.IsWritten

variable {id : LoanId} {e : ArrearsEntry}

theorem isKept (h : e.IsWritten id) : e.IsKept := by
  cases h with
  | write w left =>
    obtain ⟨c, sum, since, rfl, hcheck⟩ := ArrearsWrite.exists_of_entryLeft left
    refine ⟨hcheck, fun i => ?_, Stored.isSettled_exact sum⟩
    rw [exactly, Buckets.get_map]
    exact Stored.isSettled_exact _
  | bulk b today built inserted =>
    unfold Book.bulkRow? at inserted
    obtain ⟨l, -, hentry⟩ := Option.bind_eq_some_iff.1 inserted
    split at hentry
    · next entry hbulk =>
      cases hentry
      exact Book.isKept_of_bulkEntryOf hbulk
    · cases hentry

/-- Only the bulk insert leaves a total out of range. -/
theorem exists_bulkRow?_of_int64_le (h : e.IsWritten id) (hlarge : Bound.int64 ≤ e.total.val) :
    ∃ (b : Book) (today : Date), b.IsBuilt ∧ b.bulkRow? today id = some e := by
  cases h with
  | write w left =>
    obtain ⟨c, sum, since, rfl, -⟩ := ArrearsWrite.exists_of_entryLeft left
    exact absurd rfl (Stored.not_isExact_of_int64_le hlarge)
  | bulk b today built inserted => exact ⟨b, today, built, inserted⟩

end ArrearsEntry.IsWritten

/-! ## Tables -/

/-- What a bulk insert that succeeds has under a loan was there before, or is the entry of the
    loan. -/
theorem Book.find?_of_foldlM_bulkStep {b : Book} {today : Date} {rows : List (LoanId × Loan)}
    {n n' : Nat} {t t' : ArrearsTable}
    (h : rows.foldlM (b.bulkStep today) (n, t) = .ok (n', t')) {id : LoanId} {e : ArrearsEntry}
    (he : t'.find? id = some e) :
    t.find? id = some e ∨ ∃ l, (id, l) ∈ rows ∧ b.bulkEntryOf today l = .ok (some e) := by
  induction rows generalizing n t with
  | nil =>
    cases h
    exact .inl he
  | cons r rest ih =>
    rw [List.foldlM_cons] at h
    obtain ⟨⟨n₁, t₁⟩, hstep, hrest⟩ := exists_of_bind_eq_ok h
    rcases ih hrest with hfirst | ⟨l, hl, hentry⟩
    · rw [bulkStep_eq] at hstep
      split at hstep
      · next entry hentry =>
        split at hstep
        · cases hstep
        · cases hstep
          rw [Table.find?_put] at hfirst
          split at hfirst
          · next hid =>
            cases hfirst
            subst hid
            exact .inr ⟨r.2, List.mem_cons_self, hentry⟩
          · exact .inl hfirst
      · cases hstep
        exact .inl hfirst
      · cases hstep
    · exact .inr ⟨l, List.mem_cons_of_mem _ hl, hentry⟩

namespace ArrearsTable

variable {t : ArrearsTable}

/-- The rows of a table can be read when the buckets of each add up in range. -/
theorem exists_rows_iff (h : ∀ id e, t.find? id = some e → e.IsKept) :
    (∃ rows, ArrearsTable.rows t = .ok rows) ↔
      ∀ id e, t.find? id = some e → e.overdue.exactSum < Bound.int64 := by
  unfold ArrearsTable.rows
  rw [exists_mapM_eq_ok_iff]
  constructor
  · intro hread id e he
    exact ((h id e he).exists_read_iff id).1 (hread (id, e) (Table.find?_eq_some_iff.1 he))
  · rintro hlt ⟨id, e⟩ he
    have hfind : t.find? id = some e := Table.find?_eq_some_iff.2 he
    exact ((h id e hfind).exists_read_iff id).2 (hlt id e hfind)

/-- Rows that are read are those of the entries, in ascending order of their loans, and they
    conserve their totals. -/
theorem rows_of_eq_ok (h : ∀ id e, t.find? id = some e → e.IsKept) {rows : List AgingRow}
    (hrows : ArrearsTable.rows t = .ok rows) :
    (rows.map (·.loan)).Pairwise (· < ·) ∧
      (∀ id, id ∈ rows.map (·.loan) ↔ ∃ e, t.find? id = some e) ∧
      ∀ r ∈ rows, r.IsConserved := by
  have hread : ∀ x ∈ Table.rows t, ∀ r, x.2.read x.1 = .ok r → r.loan = x.1 ∧ r.IsConserved := by
    rintro ⟨id, e⟩ he r hr
    have hkept := h id e (Table.find?_eq_some_iff.2 he)
    obtain ⟨r', hr', hloan, hconserved⟩ :=
      hkept.exists_read ((hkept.exists_read_iff id).1 ⟨r, hr⟩) id
    cases hr.symm.trans hr'
    exact ⟨hloan, hconserved⟩
  obtain ⟨hids, hconserved⟩ := map_eq_of_mapM_eq_ok hrows hread
  refine ⟨?_, fun id => ?_, hconserved⟩
  · rw [hids, List.pairwise_map]
    exact t.ascending
  · rw [hids]
    simp only [List.mem_map, Prod.exists, exists_and_right, exists_eq_right,
      Table.find?_eq_some_iff]

end ArrearsTable

end LoanArrears
