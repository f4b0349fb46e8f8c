-- SUMMARY: The bulk insert and the live computation agree row for row: into an empty table it inserts exactly the rows of the writes computed off live schedules.
import LoanArrears.Proofs.Job.Agreement

/-!
# The bulk insert against the live computation

The bulk insert works on stored numbers, on texts of dates and on all installments at once; the
live computation adds up the decimals of one installment after the other. On a book whose numbers
stay in range they leave the same: under each active loan that does not replay its planned
schedule the row of the write of its live totals, under other loans nothing.
-/

namespace LoanArrears

namespace Book

/-- The loan is active and does not replay its planned schedule, so it ages off its live one. -/
structure AgesLive (b : Book) (id : LoanId) (terms : AgingTerms) : Prop where
  terms_eq : b.terms id = .ok terms
  active : terms.status.isActive
  live : terms.replaysPlanned = false

variable {b : Book} {today : Date} {id : LoanId}

theorem agesLive_activeTerms {l : Loan} {p : Product} (hl : b.loans.find? id = some l)
    (hp : b.products.find? l.product = some p) (haged : l.isAgedInBulk p) :
    b.AgesLive id (l.activeTerms id p) := by
  rw [Loan.isAgedInBulk_eq, Bool.and_eq_true, Bool.not_eq_true'] at haged
  exact ⟨terms_of_isActive hl hp haged.1, rfl, haged.2⟩

/-- A loan that ages off its live schedule is aged in bulk. -/
theorem AgesLive.exists_isAgedInBulk {terms : AgingTerms} (h : b.AgesLive id terms) :
    ∃ l p, b.loans.find? id = some l ∧ b.products.find? l.product = some p ∧
      l.isAgedInBulk p ∧ terms = l.activeTerms id p := by
  obtain ⟨l, p, hl, hp, hactive, hterms⟩ := exists_activeTerms h.terms_eq h.active
  refine ⟨l, p, hl, hp, ?_, hterms⟩
  rw [Loan.isAgedInBulk_eq, hactive, Bool.true_and, Bool.not_eq_true']
  have hlive := h.live
  rw [hterms] at hlive
  exact hlive

/-- The loans that are aged in bulk have numbers in range, and dates with four-digit years. -/
def FitsBulk (b : Book) (today : Date) : Prop :=
  ∀ id l p, b.loans.find? id = some l → b.products.find? l.product = some p →
    l.isAgedInBulk p →
      l.FitsLive today (l.graceOf p) ∧ ∀ e ∈ l.schedule, e.dueDate.HasFourDigitYear

theorem FitsBulk.bulkAccepts (hfits : b.FitsBulk today) (htoday : today.HasFourDigitYear) :
    b.BulkAccepts today := by
  intro id l hl
  by_cases haged : ∃ p, b.products.find? l.product = some p ∧ l.isAgedInBulk p
  · obtain ⟨p, hp, haged⟩ := haged
    obtain ⟨hlive, hyears⟩ := hfits id l p hl hp haged
    obtain ⟨e, hentry, -⟩ := exists_bulkEntryOf hp haged hlive htoday hyears
    exact ⟨e, hentry⟩
  · exact ⟨none, bulkEntryOf_of_not_isAgedInBulk fun p hp haged' => haged ⟨p, hp, haged'⟩⟩

/-- No entry is inserted under a loan that does not age off its live schedule. -/
theorem bulkRow?_of_not_agesLive (h : ¬ ∃ terms, b.AgesLive id terms) :
    b.bulkRow? today id = none := by
  cases hl : b.loans.find? id with
  | none =>
    rw [bulkRow?, hl]
    rfl
  | some l =>
    exact bulkRow?_of_bulkEntryOf hl
      (bulkEntryOf_of_not_isAgedInBulk fun p hp haged => h ⟨_, agesLive_activeTerms hl hp haged⟩)

end Book

namespace Store

variable {b : Book} {t : ArrearsTable} {id : LoanId}

theorem exec_row?_of_find?_eq_none (h : t.find? id = none) :
    (row? id : Act Store (Option AgingRow)).exec ⟨some ⟨b, t⟩, false⟩ =
      (.ok none, ⟨some ⟨b, t⟩, false⟩) := by
  rw [exec_row?, ArrearsTable.row?, h]

/-- What is answered for a loan is the row of the write: one that carries the position of an
    upsert, or none. -/
def Answers (s : Store) (id : LoanId) (w : ArrearsWrite) : Prop :=
  match w with
  | .upsert a => ∃ r, (row? id : Act Store (Option AgingRow)).exec s = (.ok (some r), s) ∧
      r.Carries a
  | .delete _ => (row? id : Act Store (Option AgingRow)).exec s = (.ok none, s)

/-- An entry that is left by what totals count answers for the write of the totals. -/
theorem answers_ofTotals {totals : Totals} {os : List Outstanding} (hcounts : totals.Counts os)
    (hleaves : Outstanding.Leaves os (t.find? id)) :
    Answers ⟨some ⟨b, t⟩, false⟩ id (.ofTotals id totals) := by
  cases hfind : t.find? id with
  | none =>
    rw [hfind] at hleaves
    have hnil : Date.IsOldest (Outstanding.principalDates os) none := hleaves
    rw [ArrearsWrite.ofTotals_of_since_eq_none (hcounts.isOldest.unique hnil fun _ => Iff.rfl)]
    exact exec_row?_of_find?_eq_none hfind
  | some e =>
    rw [hfind] at hleaves
    have hrecords : e.Records os := hleaves
    have hsince : totals.since = some e.since :=
      hcounts.isOldest.unique hrecords.isOldest fun _ => Iff.rfl
    obtain ⟨r, hread, hcarries⟩ := hrecords.exists_read hcounts id
    rw [hcounts.ofTotals_of_since hsince]
    refine ⟨r, ?_, hcarries⟩
    rw [exec_row?, ArrearsTable.row?, hfind]
    simp only [hread]
    rfl

theorem exec_rowCount :
    (rowCount : Act Store Nat).exec ⟨some ⟨b, t⟩, false⟩ = (.ok t.size, ⟨some ⟨b, t⟩, false⟩) :=
  exec_statement _ _ _

end Store

/-- Into an empty table the bulk insert inserts the rows of the live computation and counts them:
    a loan that ages off its live schedule and has a cutoff has the row of the write of its live
    totals, and a loan that does not has none. -/
theorem bulkInsert_eq_live_rows {b : Book} {today : Date} (htoday : today.HasFourDigitYear)
    (hfits : b.FitsBulk today) :
    ∃ n t, (Store.bulkInsert today : Act Store Nat).exec ⟨some ⟨b, Table.empty⟩, false⟩ =
        (.ok n, ⟨some ⟨b, t⟩, false⟩) ∧
      (Store.rowCount : Act Store Nat).exec ⟨some ⟨b, t⟩, false⟩ =
        (.ok n, ⟨some ⟨b, t⟩, false⟩) ∧
      ∀ id,
        (∀ terms cutoff, b.AgesLive id terms → today.cutoff terms.grace = .ok cutoff →
          ∃ rows totals, b.liveInstallments id = .ok rows ∧
            Totals.ofLive rows cutoff = .ok totals ∧
            Store.Answers ⟨some ⟨b, t⟩, false⟩ id (.ofTotals id totals)) ∧
        ((¬ ∃ terms, b.AgesLive id terms) →
          (Store.row? id : Act Store (Option AgingRow)).exec ⟨some ⟨b, t⟩, false⟩ =
            (.ok none, ⟨some ⟨b, t⟩, false⟩)) := by
  obtain ⟨n, t, hinsert, hrows⟩ := Book.exists_bulkInsert (hfits.bulkAccepts htoday)
  have hsize : t.size = n := (Book.size_of_bulkInsert hinsert).trans (Nat.zero_add n)
  refine ⟨n, t, ?_, hsize ▸ Store.exec_rowCount, fun id => ⟨?_, ?_⟩⟩
  · refine (Job.exec_bulkInsert today Table.empty).trans ?_
    rw [hinsert]
  · intro terms cutoff hages hcutoff
    obtain ⟨l, p, hl, hp, haged, rfl⟩ := hages.exists_isAgedInBulk
    obtain ⟨hlive, hyears⟩ := hfits id l p hl hp haged
    obtain ⟨e, hentry, hleaves⟩ := Book.exists_bulkEntryOf hp haged hlive htoday hyears
    obtain ⟨totals, htotals, hcounts⟩ := Loan.exists_ofLive hlive hcutoff
    refine ⟨l.liveRows, totals, Book.liveInstallments_eq_ok hl hlive.consumed, htotals, ?_⟩
    apply Store.answers_ofTotals hcounts
    rw [hrows, Book.bulkRow?_of_bulkEntryOf hl hentry]
    exact hleaves
  · intro hother
    exact Store.exec_row?_of_find?_eq_none
      ((hrows id).trans (Book.bulkRow?_of_not_agesLive hother))

/-- Loan 1 of the sample gets the row of its live totals, and loan 2, which replays its planned
    schedule, gets none. -/
theorem bulkInsert_eq_live_row_of_sample :
    ∃ n t r, (Store.bulkInsert Sample.today : Act Store Nat).exec
        ⟨some ⟨Sample.book 2, Table.empty⟩, false⟩ = (.ok n, ⟨some ⟨Sample.book 2, t⟩, false⟩) ∧
      (Store.row? 1 : Act Store (Option AgingRow)).exec ⟨some ⟨Sample.book 2, t⟩, false⟩ =
        (.ok (some r), ⟨some ⟨Sample.book 2, t⟩, false⟩) ∧
      r.Carries ⟨1, Amounts.ofCents Sample.hundredCents, Sample.dueDate⟩ ∧
      (Store.row? 2 : Act Store (Option AgingRow)).exec ⟨some ⟨Sample.book 2, t⟩, false⟩ =
        (.ok none, ⟨some ⟨Sample.book 2, t⟩, false⟩) := by
  have hfits : (Sample.book 2).FitsBulk Sample.today := fun id l p hl hp haged =>
    ⟨(Sample.fits_book (.inl rfl)).live id l p hl hp haged,
      (Sample.hasFourDigitYears_book (.inl rfl)).live id l hl⟩
  obtain ⟨n, t, hinsert, -, hrows⟩ :=
    bulkInsert_eq_live_rows Sample.hasFourDigitYear_today hfits
  have hages : (Sample.book 2).AgesLive 1 (Sample.liveLoan.activeTerms 1 ⟨"live", false, 0⟩) :=
    ⟨rfl, rfl, rfl⟩
  obtain ⟨rows, totals, hread, htotals, hanswers⟩ := (hrows 1).1 _ Sample.today hages rfl
  have hwrite : ArrearsWrite.ofTotals 1 totals =
      .upsert ⟨1, Amounts.ofCents Sample.hundredCents, Sample.dueDate⟩ := by
    have hlive : Totals.ofLive Sample.liveLoan.liveRows Sample.today =
        .ok ⟨Amounts.ofCents Sample.hundredCents, some Sample.dueDate⟩ := by decide +kernel
    cases hread.symm.trans (show _ = .ok Sample.liveLoan.liveRows from by decide +kernel)
    cases htotals.symm.trans hlive
    rfl
  rw [hwrite] at hanswers
  obtain ⟨r, hrow, hcarries⟩ := hanswers
  refine ⟨n, t, r, hinsert, hrow, hcarries, (hrows 2).2 ?_⟩
  rintro ⟨terms, hages⟩
  have hterms : terms = Sample.replayingLoan.activeTerms 2 ⟨"planned", true, 0⟩ :=
    (Except.ok.inj hages.terms_eq).symm
  have hlive := hages.live
  rw [hterms] at hlive
  cases hlive

end LoanArrears
