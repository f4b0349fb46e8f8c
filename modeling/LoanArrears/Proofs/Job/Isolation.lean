-- SUMMARY: Isolation of bad loans: what a run leaves under a loan does not depend on the others, as long as the loans that are aged in bulk add up.
import LoanArrears.Proofs.Job.Passes

/-!
# Isolation

A run with bad data in its posted loans succeeds, skips them, and leaves under every other loan
what it would leave without them. The bulk insert has no such isolation: it is one statement for
all loans, and a single loan that does not add up (`Loan.AddsUp`) ends the run.
-/

namespace LoanArrears

/-- The book with some of its loans only. -/
def Book.keep (b : Book) (kept : LoanId → Bool) : Book :=
  ⟨b.products, b.loans.filter kept⟩

namespace Book

variable {b : Book} {kept : LoanId → Bool} {today : Date} {id : LoanId}

theorem find?_keep (b : Book) (kept : LoanId → Bool) (id : LoanId) :
    (b.keep kept).loans.find? id = if kept id then b.loans.find? id else none :=
  b.loans.find?_filter kept id

theorem find?_of_keep {l : Loan} (h : (b.keep kept).loans.find? id = some l) :
    b.loans.find? id = some l := by
  rw [find?_keep] at h
  split at h
  · exact h
  · cases h

theorem Sound.keep (hb : b.Sound) (kept : LoanId → Bool) : (b.keep kept).Sound where
  references id l hl := hb.references id l (find?_of_keep hl)
  ids id l hl := hb.ids id l (find?_of_keep hl)
  histories id l hl := hb.histories id l (find?_of_keep hl)

theorem AddsUp.keep (h : b.AddsUp today) (kept : LoanId → Bool) : (b.keep kept).AddsUp today :=
  fun id l p hl hp haged => h id l p (find?_of_keep hl) hp haged

theorem sameLoan_keep (b : Book) (hid : kept id) : b.SameLoan (b.keep kept) id where
  find? := by rw [find?_keep, if_pos hid]
  product _ _ := rfl

/-- What a run leaves under a loan depends on this loan only. -/
theorem jobRow?_keep (b : Book) (today : Date) (hid : kept id) :
    (b.keep kept).jobRow? today id = b.jobRow? today id := by
  have hfind : (b.keep kept).loans.find? id = b.loans.find? id := by
    rw [find?_keep, if_pos hid]
  have hbulk : (b.keep kept).bulkRow? today id = b.bulkRow? today id := by
    unfold bulkRow?
    rw [hfind]
    rfl
  have hstreamed : id ∈ (b.keep kept).streamed today ↔ id ∈ b.streamed today := by
    simp only [streamed, List.mem_filter, mem_candidateIds_iff, hfind]
    rfl
  unfold jobRow?
  rw [(b.sameLoan_keep hid).entryOf_eq, hbulk]
  simp only [hstreamed]

end Book

/-- A run succeeds exactly when the loans that are aged in bulk add up. Then no sub-batch
    failed, the loans that are skipped are those that are posted and have bad data, and under
    every loan the run leaves what it leaves without any of the others. -/
theorem run_isolates_loans_iff {b : Book} (hb : b.IsBuilt) {today : Date} {config : JobParameters}
    {old : ArrearsTable} {job : Job Store}
    (hjob : Job.new config today ⟨some ⟨b, old⟩, false⟩ = .ok job) :
    ((∃ report job', (Job.run : Act (Job Store) RunReport).exec job = (.ok report, job')) ↔
      b.AddsUp today) ∧
    ∀ report job', (Job.run : Act (Job Store) RunReport).exec job = (.ok report, job') →
      report.failed = [] ∧
      (∀ l, l ∈ report.skipped ↔
        l.loan ∈ b.streamed today ∧ b.entryOf l.loan today = .error (.error l.reason)) ∧
      ∃ t, job'.store = ⟨some ⟨b, t⟩, false⟩ ∧ ∀ kept : LoanId → Bool, ∃ report' t',
        (Job.run : Act (Job Store) RunReport).exec
          { job with store := ⟨some ⟨b.keep kept, old⟩, false⟩ } =
          (.ok report', { job with store := ⟨some ⟨b.keep kept, t'⟩, false⟩ }) ∧
        ∀ id, kept id → t.find? id = t'.find? id := by
  have hsound : b.Sound := hb.sound
  obtain ⟨-, -, hjob⟩ := exists_of_bind_eq_ok hjob
  cases hjob
  have hrun {b : Book} (hb : b.Sound) (hadds : b.AddsUp today) :=
    @Job.exists_run b today config .idle (fun id l hl => (hb.ids id l hl).2)
      ((b.bulkAccepts_iff today).2 hadds) (hb.failsByData today) old
  have hfail (hadds : ¬ b.AddsUp today) :=
    @Job.exists_run_eq_error b today config .idle (mt (b.bulkAccepts_iff today).1 hadds) old
  by_cases hadds : b.AddsUp today
  · obtain ⟨report, t, hexec, hfailed, hskipped, hrows⟩ := hrun hsound hadds
    refine ⟨iff_of_true ⟨report, _, hexec⟩ hadds, fun report' job' hexec' => ?_⟩
    rw [hexec] at hexec'
    cases hexec'
    refine ⟨hfailed, hskipped, t, rfl, fun kept => ?_⟩
    obtain ⟨report', t', hexec', -, -, hrows'⟩ := hrun (hsound.keep kept) (hadds.keep kept)
    refine ⟨report', t', hexec', fun id hid => ?_⟩
    rw [hrows, hrows', b.jobRow?_keep today hid]
  · obtain ⟨e, s, hexec⟩ := hfail hadds
    have hnone : ¬ ∃ report job', (Job.run : Act (Job Store) RunReport).exec
        ⟨config, today, .idle, ⟨some ⟨b, old⟩, false⟩⟩ = (.ok report, job') := by
      rintro ⟨report, job', hok⟩
      rw [hexec] at hok
      cases hok
    exact ⟨iff_of_false hnone hadds, fun report job' hok => (hnone ⟨report, job', hok⟩).elim⟩

namespace Sample

/-- Loan 3 replays a planned schedule with a negative due amount. -/
def badWrites : List LoanWrite :=
  [.insertLoan ⟨3, 2, .active, none, .zero⟩, .insertHistory ⟨3, 1, 1, dueDate, minusHundred⟩]

def badBook : Book :=
  (book 2).after badWrites

theorem isBuilt_badBook : badBook.IsBuilt := by
  refine (isBuilt_book (by decide)).after ?_
  simp [badWrites, LoanWrite.InRange, IsId, Bound.int64, Bound.nat32]

theorem addsUp_badBook : badBook.AddsUp today := by
  obtain ⟨n, t, hinsert⟩ : ∃ n t, badBook.bulkInsert today Table.empty = .ok (n, t) := ⟨_, _, rfl⟩
  exact (badBook.bulkAccepts_iff today).1 (Book.bulkAccepts_of_bulkInsert hinsert)

end Sample

/-- A run over the book skips loan 3, and leaves under the other loans what it leaves without
    it. -/
theorem run_isolates_loans_of_sample :
    ∃ job report job' t report' job'' t',
      Job.new .small Sample.today ⟨some ⟨Sample.badBook, Table.empty⟩, false⟩ = .ok job ∧
      (Job.run : Act (Job Store) RunReport).exec job = (.ok report, job') ∧
      report.failed = [] ∧ (∀ l, l ∈ report.skipped ↔ l = ⟨3, .invalidLoan 3 (.negativeDue 1)⟩) ∧
      job'.store = ⟨some ⟨Sample.badBook, t⟩, false⟩ ∧
      (Job.run : Act (Job Store) RunReport).exec
        { job with store := ⟨some ⟨Sample.badBook.keep (· ≠ 3), Table.empty⟩, false⟩ } =
          (.ok report', job'') ∧
      job''.store = ⟨some ⟨Sample.badBook.keep (· ≠ 3), t'⟩, false⟩ ∧
      ∀ id, id ≠ 3 → t.find? id = t'.find? id := by
  obtain ⟨hsucceeds, hruns⟩ := @run_isolates_loans_iff Sample.badBook Sample.isBuilt_badBook
    Sample.today .small Table.empty _ rfl
  obtain ⟨report, job', hexec⟩ := hsucceeds.2 Sample.addsUp_badBook
  obtain ⟨hfailed, hskipped, t, hstore, hkept⟩ := hruns report job' hexec
  obtain ⟨report', t', hexec', hrows⟩ := hkept (· ≠ 3)
  have hstreamed : Sample.badBook.streamed Sample.today = [2, 3] := by decide +kernel
  have htwo : (Sample.badBook.entryOf 2 Sample.today).toOption.isSome := by decide +kernel
  have hthree : Sample.badBook.entryOf 3 Sample.today =
      .error (.error (.invalidLoan 3 (.negativeDue 1))) := by decide +kernel
  refine ⟨_, report, job', t, report', _, t', rfl, hexec, hfailed, fun l => ?_, hstore, hexec',
    rfl, fun id hid => hrows id (decide_eq_true hid)⟩
  rw [hskipped, hstreamed]
  constructor
  · rintro ⟨hloan, hentry⟩
    obtain ⟨loan, reason⟩ := l
    simp only [List.mem_cons, List.not_mem_nil, or_false] at hloan
    rcases hloan with rfl | rfl
    · rw [hentry] at htwo
      cases htwo
    · cases hthree.symm.trans hentry
      rfl
  · rintro rfl
    exact ⟨by decide, hthree⟩

namespace Sample

/-- The largest principal that a column holds. -/
def largest : Amounts := .ofPrincipal { coeff := 9223372036854775807, scale := 2 }

def largestCents : Buckets Cents :=
  ⟨⟨9223372036854775807, by decide, by decide⟩, .zero, .zero, .zero⟩

/-- A loan with two overdue installments, each of which fits in its column. -/
def overflowingWrites : List LoanWrite :=
  [.insertProduct ⟨1, "live", false, 0⟩, .insertLoan ⟨1, 1, .active, none, .zero⟩,
    .insertSchedule (.unpaid 1 1 dueDate largest), .insertSchedule (.unpaid 1 2 dueDate largest)]

def overflowingBook : Book :=
  Book.empty.after overflowingWrites

def overflowingLoan : Loan :=
  { newLoan 1 with
    schedule := [⟨1, dueDate, largestCents, exactly (.all .zero), .all .zero, .all .zero, false⟩,
      ⟨2, dueDate, largestCents, exactly (.all .zero), .all .zero, .all .zero, false⟩] }

theorem isBuilt_overflowingBook : overflowingBook.IsBuilt := by
  refine ⟨overflowingWrites, ?_, Table.empty, ?_⟩
  · simp [overflowingWrites, LoanWrite.InRange, IsId, Bound.int64, Bound.nat32, LiveRow.unpaid]
  · exact congrArg Store.tables (Store.after_eq Book.empty Table.empty false overflowingWrites)

/-- The principal of the installments is out of range, though each of them is in range. -/
theorem not_addsUp_overflowingBook : ¬ overflowingBook.AddsUp today := by
  intro hadds
  have hloan : overflowingLoan.AddsUp (today.cutoffText? 0) :=
    hadds 1 overflowingLoan ⟨"live", false, 0⟩ rfl rfl rfl
  have hbefore : dueDate.isBeforeText (today.cutoffText? 0) = true := by
    rw [Date.isBeforeText_cutoffText? (Date.hasFourDigitYear_iff.2 (by decide))
      hasFourDigitYear_today]
    decide
  have hoverdue : overflowingLoan.overdueByText (today.cutoffText? 0) =
      overflowingLoan.schedule := by
    simp [Loan.overdueByText, overflowingLoan, hbefore]
  have hsum := hloan.buckets .principal
  rw [hoverdue] at hsum
  exact absurd (hsum (by decide)) (by decide)

end Sample

/-- Two installments of a loan that do not add up end the run with an error. -/
theorem run_fails_for_overflowing_sample :
    Sample.overflowingBook.IsBuilt ∧ ∃ job job' e,
      Job.new .small Sample.today ⟨some ⟨Sample.overflowingBook, Table.empty⟩, false⟩ = .ok job ∧
      (Job.run : Act (Job Store) RunReport).exec job = (.error (.error e), job') := by
  have hrefuses : ¬ Sample.overflowingBook.BulkAccepts Sample.today :=
    mt (Sample.overflowingBook.bulkAccepts_iff Sample.today).1 Sample.not_addsUp_overflowingBook
  obtain ⟨e, job', hexec⟩ := @Job.exists_run_eq_error Sample.overflowingBook Sample.today .small
    .idle hrefuses Table.empty
  exact ⟨Sample.isBuilt_overflowingBook, _, job', e, rfl, hexec⟩

end LoanArrears
