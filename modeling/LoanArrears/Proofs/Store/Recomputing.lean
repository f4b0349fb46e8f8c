-- SUMMARY: Recomputing one loan of a book that is built: what is computed can be stored and is read back, and which loans and dates end in a crash.
import LoanArrears.Proofs.Arrears.Refusing
import LoanArrears.Proofs.Book.Failing
import LoanArrears.Proofs.Book.Outcome
import LoanArrears.Proofs.Job.LiveRows

/-!
# Recomputing a loan

The write that is computed for a loan never fails a check of the table: it is stored, and read
back with its exact total, or refused for an amount out of range. Computing it ends with an error
in the data of the loan, or with a crash when the business date less the days of grace is before
the first date and the loan is read that far. Whatever fails leaves the store as it is.
-/

namespace LoanArrears

/-! ## Rows -/

/-- The amounts of the row are cents, and its total is their exact sum. -/
def AgingRow.HasExactTotal (r : AgingRow) : Prop :=
  ∃ (c : Buckets Cents) (sum : Cents), r.overdue = Amounts.ofCents c ∧
    r.total = Decimal.ofCents sum ∧
    sum.val = c.principal.val + c.interest.val + c.fee.val + c.penalty.val

theorem ArrearsEntry.Records.hasExactTotal {e : ArrearsEntry} {os : List Outstanding}
    (h : e.Records os) {id : LoanId} {r : AgingRow} (hread : e.read id = .ok r) :
    r.HasExactTotal := by
  unfold read at hread
  obtain ⟨c, hc, hread⟩ := exists_of_bind_eq_ok hread
  obtain ⟨sum, hsum, hread⟩ := exists_of_bind_eq_ok hread
  cases hread
  refine ⟨c, sum, rfl, rfl, ?_⟩
  have hoverdue := Buckets.readStored_eq_ok_iff.1 hc
  have hval (i : Bucket) : (c.get i).val = Outstanding.sum os i := by
    obtain ⟨n, hn, hnval⟩ := h.overdue i
    rw [hoverdue, Buckets.get_map] at hn
    cases hn
    exact hnval
  obtain ⟨total, htotal, htotalval⟩ := h.total
  rw [htotal] at hsum
  cases hsum
  have hp := hval .principal
  have hi := hval .interest
  have hf := hval .fee
  have hl := hval .penalty
  simp only [Buckets.get] at hp hi hf hl
  rw [htotalval, Outstanding.total, hp, hi, hf, hl]
  simp only [Nat.cast_add]

namespace Store

variable {b : Book} {t : ArrearsTable} {id : LoanId}

/-- A row that is answered is that of the entry of its loan. -/
theorem exists_of_exec_row? {r : AgingRow} {s : Store}
    (h : (row? id : Act Store (Option AgingRow)).exec ⟨some ⟨b, t⟩, false⟩ = (.ok (some r), s)) :
    ∃ e, t.find? id = some e ∧ e.read id = .ok r := by
  rw [exec_row?, ArrearsTable.row?] at h
  cases hfind : t.find? id with
  | none =>
    rw [hfind] at h
    cases h
  | some e =>
    rw [hfind] at h
    cases hread : e.read id with
    | error err =>
      simp only [hread, Functor.map, Except.map] at h
      cases h
    | ok r' =>
      simp only [hread, Functor.map, Except.map] at h
      cases h
      exact ⟨e, rfl, hread⟩

end Store

/-! ## Storing what is computed -/

/-- What is computed for a loan of a built book is stored, or refused for an amount out of range;
    then the store is as it was. A delete leaves no row of the loan. An upsert leaves the row of
    its amounts and its date, with their exact sum as total. -/
theorem computed_write_is_stored {b : Book} (hb : b.IsBuilt) (t : ArrearsTable) (id : LoanId)
    (today : Date) (mode : AgingMode) {w : ArrearsWrite}
    (h : ((computeWrite id today mode : Act Store ArrearsWrite).exec ⟨some ⟨b, t⟩, false⟩).1 =
      .ok w) :
    let s : Store := ⟨some ⟨b, t⟩, false⟩
    (∃ amount, (Store.write w : Act Store Unit).exec s =
      (.error (.error (.amountOutOfRange amount)), s)) ∨
    ∃ s', (Store.write w : Act Store Unit).exec s = (.ok (), s') ∧ s'.Answers id w ∧
      ∀ r s'', (Store.row? id : Act Store (Option AgingRow)).exec s' = (.ok (some r), s'') →
        r.HasExactTotal := by
  have hreads := Store.HasBook.reads_computeWrite (s := ⟨some ⟨b, t⟩, false⟩) ⟨t, rfl⟩ id today mode
  have hwrite : b.writeOf id today mode = .ok w := by
    rw [hreads] at h
    exact h
  intro s
  rcases hb.cases_of_writeOf hwrite with rfl | ⟨totals, os, rfl, hcounts⟩
  · have hnone := Store.exec_row?_of_find?_eq_none (b := b)
      ((t.find?_set id id none).trans (if_pos rfl))
    refine .inr ⟨_, Store.exec_write_ok rfl, hnone, fun r s'' hrow => ?_⟩
    cases hnone.symm.trans hrow
  · cases hentry : (ArrearsWrite.ofTotals id totals).entryLeft with
    | error f =>
      obtain ⟨amount, rfl⟩ := hcounts.exists_of_entryLeft_eq_error hentry
      exact .inl ⟨amount, Store.exec_write_error hentry⟩
    | ok e =>
      have hfind : (t.set (ArrearsWrite.ofTotals id totals).loan e).find? id = e := by
        rw [ArrearsTable.find?_set, if_pos (ArrearsWrite.loan_ofTotals id totals).symm]
      have hleaves := hcounts.leaves_of_entryLeft hentry
      refine .inr ⟨_, Store.exec_write_ok hentry,
        Store.answers_ofTotals hcounts (hfind.symm ▸ hleaves), fun r s'' hrow => ?_⟩
      obtain ⟨e', he', hread⟩ := Store.exists_of_exec_row? hrow
      rw [hfind] at he'
      rw [he'] at hleaves
      have hrecords : e'.Records os := hleaves
      exact hrecords.hasExactTotal hread

/-- Loan 1 of the sample is in arrears: its write is stored, and read back with its exact total. -/
theorem computed_write_is_stored_of_sample :
    ∃ w s' r,
      ((computeWrite 1 Sample.today .auto : Act Store ArrearsWrite).exec
        ⟨some ⟨Sample.book 2, Table.empty⟩, false⟩).1 = .ok w ∧
      (Store.write w : Act Store Unit).exec ⟨some ⟨Sample.book 2, Table.empty⟩, false⟩ =
        (.ok (), s') ∧
      (Store.row? 1 : Act Store (Option AgingRow)).exec s' = (.ok (some r), s') ∧
      r.Carries ⟨1, Amounts.ofCents Sample.hundredCents, Sample.dueDate⟩ ∧ r.HasExactTotal := by
  have hwrite : ((computeWrite 1 Sample.today .auto : Act Store ArrearsWrite).exec
      ⟨some ⟨Sample.book 2, Table.empty⟩, false⟩).1 =
        .ok (.upsert ⟨1, Amounts.ofCents Sample.hundredCents, Sample.dueDate⟩) := by decide +kernel
  rcases computed_write_is_stored (Sample.isBuilt_book (by decide)) Table.empty 1 Sample.today .auto
    hwrite with ⟨amount, hrefused⟩ | ⟨s', hstored, ⟨r, hrow, hcarries⟩, hexact⟩
  · have hentry : (ArrearsWrite.upsert
        ⟨1, Amounts.ofCents Sample.hundredCents, Sample.dueDate⟩).entryLeft =
          .ok (some ⟨exactly Sample.hundredCents, .exact Sample.hundredCents.principal,
            Sample.dueDate⟩) := rfl
    rw [Store.exec_write_ok hentry] at hrefused
    cases hrefused
  · exact ⟨_, s', r, hwrite, hstored, hrow, hcarries, hexact r s' hrow⟩

/-! ## Answering -/

theorem Date.eq_dateBeforeRange_of_cutoff {today : Date} {grace : Nat} {c : Crash}
    (h : today.cutoff grace = .error c) : c = .dateBeforeRange := by
  unfold Date.cutoff Option.orCrash at h
  split at h
  · cases h
  · cases h
    rfl

/-- Computing the write of a loan crashes when the loan is active, its schedule can be read, and
    the business date has no cutoff for it. -/
theorem Book.IsBuilt.writeOf_eq_crash_iff {b : Book} (hb : b.IsBuilt) {id : LoanId} {today : Date}
    {mode : AgingMode} {c : Crash} :
    b.writeOf id today mode = .error (.crash c) ↔ ∃ terms, b.terms id = .ok terms ∧
      terms.status.isActive ∧ b.IsReadable terms mode ∧ today.cutoff terms.grace = .error c := by
  rcases hb.writeOf_cases id today mode with ⟨e, hterms, hwrite⟩ |
    ⟨terms, hterms, hstatus, hwrite⟩ | ⟨terms, x, hterms, hactive, hx, hwrite⟩
  · rw [hwrite, hterms]
    simp
  · rw [hwrite, hterms]
    simp [hstatus]
  · rw [hwrite, hterms]
    cases hx with
    | unreadable e hread => simp [hread]
    | beforeRange c' hread hcutoff => simp [hactive, hread, hcutoff]
    | counted t os cutoff hread hcutoff hcounts => simp [hcutoff]

namespace Store

variable {b : Book} {t : ArrearsTable} {tx : Bool} {id : LoanId} {today : Date} {mode : AgingMode}

/-- Recomputing a loan ends with an error in its data, with the crash of computing its write, or
    with the write; what fails leaves the store as it is. -/
theorem recompute_cases :
    (∃ e : Error, (recompute id today mode : Act Store ArrearsWrite).exec ⟨some ⟨b, t⟩, tx⟩ =
      (.error (.error e), ⟨some ⟨b, t⟩, tx⟩) ∧ e.class = .data ∧
      ∀ c, b.writeOf id today mode ≠ .error (.crash c)) ∨
    (∃ c, (recompute id today mode : Act Store ArrearsWrite).exec ⟨some ⟨b, t⟩, tx⟩ =
      (.error (.crash c), ⟨some ⟨b, t⟩, tx⟩) ∧ b.writeOf id today mode = .error (.crash c)) ∨
    ∃ w s', (recompute id today mode : Act Store ArrearsWrite).exec ⟨some ⟨b, t⟩, tx⟩ =
      (.ok w, s') ∧ ∀ c, b.writeOf id today mode ≠ .error (.crash c) := by
  cases hwrite : b.writeOf id today mode with
  | error f =>
    cases f with
    | error e =>
      exact .inl ⟨e, exec_recompute_error hwrite, b.failsOnly_writeOf id today mode _ hwrite, nofun⟩
    | crash c => exact .inr (.inl ⟨c, exec_recompute_error hwrite, rfl⟩)
  | ok w =>
    cases hentry : w.entryLeft with
    | error f =>
      obtain ⟨e, rfl, hdata⟩ := w.exists_of_entryLeft_eq_error hentry
      exact .inl ⟨e, exec_recompute_refused hwrite hentry, hdata, nofun⟩
    | ok e => exact .inr (.inr ⟨w, _, exec_recompute_ok hwrite hentry, nofun⟩)

end Store

/-- Recomputing a loan of a built book answers, with the write or with an error in the data of the
    loan, exactly when there is a cutoff for the loan if it is active and its schedule can be read.
    Without one it crashes. What fails leaves the store as it is. -/
theorem recompute_answers_iff {b : Book} (hb : b.IsBuilt) (t : ArrearsTable) (tx : Bool)
    (id : LoanId) (today : Date) (mode : AgingMode) :
    let s : Store := ⟨some ⟨b, t⟩, tx⟩
    let r := (recompute id today mode : Act Store ArrearsWrite).exec s
    ((∀ c, r.1 ≠ .error (.crash c)) ↔
      ∀ terms, b.terms id = .ok terms → terms.status.isActive → b.IsReadable terms mode →
        ∃ cutoff, today.cutoff terms.grace = .ok cutoff) ∧
    (∀ c, r.1 = .error (.crash c) → c = .dateBeforeRange) ∧
    (∀ e, r.1 = .error (.error e) → e.class = .data) ∧
    ∀ f, r.1 = .error f → r.2 = s := by
  intro s r
  have hcutoff : (∀ terms, b.terms id = .ok terms → terms.status.isActive →
      b.IsReadable terms mode → ∃ cutoff, today.cutoff terms.grace = .ok cutoff) ↔
        ∀ c, b.writeOf id today mode ≠ .error (.crash c) := by
    constructor
    · intro h c hcrash
      obtain ⟨terms, hterms, hactive, hread, hnone⟩ := hb.writeOf_eq_crash_iff.1 hcrash
      obtain ⟨cutoff, hsome⟩ := h terms hterms hactive hread
      rw [hnone] at hsome
      cases hsome
    · intro h terms hterms hactive hread
      cases hnone : today.cutoff terms.grace with
      | ok cutoff => exact ⟨cutoff, rfl⟩
      | error c =>
        exact absurd (hb.writeOf_eq_crash_iff.2 ⟨terms, hterms, hactive, hread, hnone⟩) (h c)
  rw [hcutoff]
  rcases @Store.recompute_cases b t tx id today mode with ⟨e, hexec, hdata, hwrite⟩ |
    ⟨c, hexec, hwrite⟩ | ⟨w, s', hexec, hwrite⟩
  · have hr : r = (.error (.error e), s) := hexec
    rw [hr]
    refine ⟨iff_of_true nofun hwrite, nofun, fun e' he' => ?_, fun _ _ => rfl⟩
    cases he'
    exact hdata
  · have hr : r = (.error (.crash c), s) := hexec
    obtain ⟨terms, -, -, -, hnone⟩ := hb.writeOf_eq_crash_iff.1 hwrite
    rw [hr]
    refine ⟨iff_of_false (fun h => h c rfl) (fun h => h c hwrite), fun c' hc' => ?_, nofun,
      fun _ _ => rfl⟩
    cases hc'
    exact Date.eq_dateBeforeRange_of_cutoff hnone
  · have hr : r = (.ok w, s') := hexec
    rw [hr]
    exact ⟨iff_of_true nofun hwrite, nofun, nofun, nofun⟩

/-- Loan 1 of the sample has a cutoff, so recomputing it answers. -/
theorem recompute_answers_for_sample :
    (Sample.book 2).IsBuilt ∧ ∀ c, ((recompute 1 Sample.today .auto : Act Store ArrearsWrite).exec
      ⟨some ⟨Sample.book 2, Table.empty⟩, false⟩).1 ≠ .error (.crash c) := by
  refine ⟨Sample.isBuilt_book (by decide), ?_⟩
  refine (recompute_answers_iff (Sample.isBuilt_book (by decide)) Table.empty false 1 Sample.today
    .auto).1.2 fun terms hterms hactive hread => ?_
  have hgrace : terms.grace = 0 := by
    cases hterms
    rfl
  rw [hgrace]
  exact ⟨Sample.today, rfl⟩

namespace Sample

/-- A product with the most days of grace that its column has, and an active loan of it. -/
def longGraceWrites : List LoanWrite :=
  [.insertProduct ⟨1, "live", false, Bound.nat32 - 1⟩, .insertLoan ⟨1, 1, .active, none, .zero⟩]

def longGraceBook : Book :=
  Book.empty.after longGraceWrites

theorem isBuilt_longGraceBook : longGraceBook.IsBuilt := by
  refine ⟨longGraceWrites, ?_, Table.empty, ?_⟩
  · simp [longGraceWrites, LoanWrite.InRange, IsId, Bound.int64, Bound.nat32]
  · exact congrArg Store.tables (Store.after_eq Book.empty Table.empty false longGraceWrites)

end Sample

/-- With the most days of grace there are, recomputing an active loan crashes. -/
theorem recompute_crashes_for_long_grace :
    ¬ ∀ (b : Book), b.IsBuilt → ∀ (t : ArrearsTable) (id : LoanId) (today : Date)
      (mode : AgingMode) (c : Crash),
        ((recompute id today mode : Act Store ArrearsWrite).exec ⟨some ⟨b, t⟩, false⟩).1 ≠
          .error (.crash c) := by
  intro h
  exact h Sample.longGraceBook Sample.isBuilt_longGraceBook Table.empty 1 Sample.today .auto
    .dateBeforeRange (by decide +kernel)

end LoanArrears
