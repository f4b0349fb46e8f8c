-- SUMMARY: The full recompute and single loans agree: whatever the table held and however the job is set up, a run leaves the rows of the computed writes.
import LoanArrears.Proofs.Job.Passes

/-!
# Agreement

A run succeeds, and the table that it leaves is a function of the loan book and the business
date. It has a row for a loan when the write computed for the loan is an upsert, and the row
carries the amounts, the total and the date of it.
-/

namespace LoanArrears

/-- The row has the loan of a position, its amounts, their sum and its date. -/
structure AgingRow.Carries (r : AgingRow) (a : ArrearsPosition) : Prop where
  loan : r.loan = a.loan
  overdue : Amounts.eqv r.overdue a.overdue
  total : ∃ total, a.total = .ok total ∧ r.total.eqv total
  since : r.since = a.since

theorem Amounts.eqv_iff {a b : Amounts} : a.eqv b ↔ ∀ i, (a.get i).eqv (b.get i) := by
  rw [eqv, List.all_eq_true, Buckets.forall_mem_toList]
  simp only [Buckets.get_zipWith, id]

/-- An entry that records what a position counts is read as a row that carries it. -/
theorem ArrearsEntry.Records.exists_read {e : ArrearsEntry} {os : List Outstanding}
    (h : e.Records os) {t : Totals} (hcounts : t.Counts os) (loan : LoanId) :
    ∃ r, e.read loan = .ok r ∧ r.Carries ⟨loan, t.overdue, e.since⟩ := by
  choose c hc hval using h.overdue
  obtain ⟨sum, hsum, hsumval⟩ := h.total
  have hlt : Outstanding.total os < Bound.int64 := by
    have hlt := sum.lt_hi
    unfold Bound.int64
    omega
  have hoverdue : e.overdue.readStored 1 columns = .ok (.tabulate c) := by
    rw [Buckets.readStored_eq_ok_iff]
    apply Buckets.ext_get
    intro i
    rw [hc, Buckets.get_map, Buckets.get_tabulate]
  obtain ⟨d, hd, hdcents⟩ := hcounts.exists_total fun i =>
    Nat.lt_of_le_of_lt (Outstanding.sum_le_total os i) hlt
  refine ⟨⟨loan, Amounts.ofCents (.tabulate c), Decimal.ofCents sum, e.since⟩, ?_, ?_⟩
  · unfold read
    rw [hoverdue, hsum]
    rfl
  · refine ⟨rfl, Amounts.eqv_iff.2 fun i => ?_, ⟨d, hd, ?_⟩, rfl⟩
    · rw [Amounts.ofCents, Buckets.get_map, Buckets.get_tabulate]
      apply Decimal.IsCents.eqv_ofCents
      rw [hval]
      exact hcounts.isCents i
    · apply Decimal.IsCents.eqv_ofCents
      rw [hsumval]
      exact hdcents

namespace Store

variable {b : Book} {t : ArrearsTable}

theorem exec_row? (id : LoanId) :
    (row? id : Act Store (Option AgingRow)).exec ⟨some ⟨b, t⟩, false⟩ =
      ((match t.row? id with
        | .ok r => .ok r
        | .error e => .error (.error e)), ⟨some ⟨b, t⟩, false⟩) := by
  refine (exec_statement _ _ _).trans ?_
  simp only [query, update, Act.exec_ofExec]
  cases t.row? id <;> rfl

end Store

/-- What a table with the expected rows answers for a loan: the row of an upsert, or none. -/
theorem Book.Fits.exec_row? {b : Book} {today : Date} (hfits : b.Fits today) (hb : b.Sound)
    {t : ArrearsTable} {id : LoanId} (hrow : t.find? id = b.expectedRow? today id) :
    match b.writeOf id today .auto with
    | .ok (.upsert a) => ∃ r, (Store.row? id : Act Store (Option AgingRow)).exec
        ⟨some ⟨b, t⟩, false⟩ = (.ok (some r), ⟨some ⟨b, t⟩, false⟩) ∧ r.Carries a
    | _ => (Store.row? id : Act Store (Option AgingRow)).exec ⟨some ⟨b, t⟩, false⟩ =
        (.ok none, ⟨some ⟨b, t⟩, false⟩) := by
  rw [Store.exec_row?, ArrearsTable.row?, hrow]
  cases hwrite : b.writeOf id today .auto with
  | error f =>
    rw [expectedRow?, entryOf_of_writeOf_error hwrite]
  | ok w =>
    cases w with
    | delete loan =>
      rw [expectedRow?, entryOf_of_writeOf hwrite]
      rfl
    | upsert a =>
      obtain ⟨counted, os, e, ha, hcounts, hentry, hrecords⟩ := hfits.exists_counts hb hwrite
      obtain ⟨since, hsince, rfl⟩ := hcounts.exists_since ha
      obtain ⟨r, hread, hcarries⟩ := hrecords.exists_read hcounts id
      have hdate : e.since = since := by
        have hold := hcounts.isOldest
        rw [hsince] at hold
        exact Option.some.inj (hrecords.isOldest.unique hold fun d => Iff.rfl)
      rw [expectedRow?, hentry]
      refine ⟨r, ?_, hdate ▸ hcarries⟩
      simp only [hread]
      rfl

/-- A run leaves what is expected under every loan, if all ids are behind the first cursor. -/
theorem Book.Fits.jobRow?_eq_of_positive {b : Book} {today : Date} (hfits : b.Fits today)
    (hb : b.Sound) (htoday : today.HasFourDigitYear) (hyears : b.HasFourDigitYears)
    (hpositive : ∀ id l, b.loans.find? id = some l → 0 < id) (id : LoanId) :
    b.jobRow? today id = b.expectedRow? today id := by
  cases hl : b.loans.find? id with
  | some l => exact hfits.jobRow?_eq hb htoday hyears (hpositive id l hl)
  | none =>
    have hbulk : b.bulkRow? today id = none := by
      rw [bulkRow?, hl]
      rfl
    have hterms : b.terms id = .error (.loanNotFound id) := by
      unfold Book.terms loanWithProduct?
      rw [hl]
      rfl
    have hentry := entryOf_of_writeOf_error (writeOf_of_terms_error hterms today .auto)
    rw [jobRow?, expectedRow?, hentry, hbulk]

/-- A run succeeds, without a failed sub-batch. The table that it leaves depends on the loan book
    and the business date only, and its rows are those of the computed writes: one that carries
    the position of an upsert, and none for any other loan. -/
theorem run_leaves_computed_writes {b : Book} (hb : b.IsBuilt)
    (hpositive : ∀ id l, b.loans.find? id = some l → 0 < id) {today : Date}
    (htoday : today.HasFourDigitYear) (hyears : b.HasFourDigitYears) (hfits : b.Fits today) :
    ∃ t : ArrearsTable,
      (∀ (config : JobParameters) (old : ArrearsTable) (job : Job Store),
        Job.new config today ⟨some ⟨b, old⟩, false⟩ = .ok job →
          ∃ report, (Job.run : Act (Job Store) RunReport).exec job =
              (.ok report, { job with store := ⟨some ⟨b, t⟩, false⟩ }) ∧
            report.failed = []) ∧
      ∀ (s : Store) (id : LoanId), s.HasBook b →
        match ((computeWrite id today .auto : Act Store ArrearsWrite).exec s).1 with
        | .ok (.upsert a) => ∃ r, (Store.row? id : Act Store (Option AgingRow)).exec
            ⟨some ⟨b, t⟩, false⟩ = (.ok (some r), ⟨some ⟨b, t⟩, false⟩) ∧ r.Carries a
        | _ => (Store.row? id : Act Store (Option AgingRow)).exec ⟨some ⟨b, t⟩, false⟩ =
            (.ok none, ⟨some ⟨b, t⟩, false⟩) := by
  have hsound : b.Sound := hb.sound
  have hrun (config : JobParameters) (old : ArrearsTable) :=
    @Job.exists_run b today config .idle (fun id l hl => (hsound.ids id l hl).2)
      (hfits.bulkAccepts htoday hyears) (hsound.failsByData today) old
  obtain ⟨-, t, -, -, -, hrows⟩ := hrun .standard Table.empty
  refine ⟨t, fun config old job hjob => ?_, fun s id hs => ?_⟩
  · obtain ⟨report, t', hexec, hfailed, -, hrows'⟩ := hrun config old
    have htable : t' = t := Table.ext_find? fun id => (hrows' id).trans (hrows id).symm
    obtain ⟨-, -, hjob⟩ := exists_of_bind_eq_ok hjob
    cases hjob
    exact ⟨report, htable ▸ hexec, hfailed⟩
  · have hreads : ((computeWrite id today .auto : Act Store ArrearsWrite).exec s).1 =
        b.writeOf id today .auto := congrArg Prod.fst (hs.reads_computeWrite id today .auto)
    rw [hreads]
    apply hfits.exec_row? hsound
    rw [hrows, hfits.jobRow?_eq_of_positive hsound htoday hyears hpositive]

/-- A run over the sample book succeeds and leaves the row of loan 2, which carries its position. -/
theorem run_leaves_row_of_sample :
    ∃ t report job r,
      Job.new .small Sample.today ⟨some ⟨Sample.book 2, Table.empty⟩, false⟩ = .ok job ∧
      (Job.run : Act (Job Store) RunReport).exec job =
        (.ok report, { job with store := ⟨some ⟨Sample.book 2, t⟩, false⟩ }) ∧
      report.failed = [] ∧
      (Store.row? 2 : Act Store (Option AgingRow)).exec ⟨some ⟨Sample.book 2, t⟩, false⟩ =
        (.ok (some r), ⟨some ⟨Sample.book 2, t⟩, false⟩) ∧
      r.Carries ⟨2, Amounts.ofCents Sample.hundredCents, Sample.dueDate⟩ := by
  have hpositive : ∀ id l, (Sample.book 2).loans.find? id = some l → 0 < id := by
    intro id l hl
    rcases Sample.eq_of_find?_book (.inl rfl) hl with ⟨rfl, -⟩ | ⟨rfl, -⟩
    · decide
    · decide
  obtain ⟨t, hrun, hrows⟩ := run_leaves_computed_writes (Sample.isBuilt_book (by decide)) hpositive
    Sample.hasFourDigitYear_today (Sample.hasFourDigitYears_book (.inl rfl))
    (Sample.fits_book (.inl rfl))
  obtain ⟨report, hexec, hfailed⟩ := hrun .small Table.empty _ rfl
  have hrow := hrows ⟨some ⟨Sample.book 2, Table.empty⟩, false⟩ 2 ⟨Table.empty, rfl⟩
  rw [Sample.exec_computeWrite (.inl rfl)] at hrow
  obtain ⟨r, hr, hcarries⟩ := hrow
  exact ⟨t, report, _, r, rfl, hexec, hfailed, hr, hcarries⟩

end LoanArrears
