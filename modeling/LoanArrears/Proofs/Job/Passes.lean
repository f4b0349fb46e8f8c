-- SUMMARY: The two passes of the job: which loans each of them ages, and that together they leave under a loan what its own write leaves.
import LoanArrears.Proofs.Book.Overflow
import LoanArrears.Proofs.Book.Planned
import LoanArrears.Proofs.Job.Run

/-!
# The passes and single loans

`Book.expectedRow?` is what the write of a loan leaves. As long as the numbers of a book stay
in range and its dates have four-digit years, the bulk insert leaves it under the loans that
age off their live schedule. A loan that replays its planned schedule and is in arrears is a
candidate, so it is posted if its id is behind the first cursor, which is zero. Loans with
other ids are missed: that is when a loan in arrears is in neither of the passes.
-/

namespace LoanArrears

/-- The amounts of a position, and their sum, fit in the columns of the table. -/
def ArrearsPosition.Fits (a : ArrearsPosition) : Prop :=
  ∃ cents total sum, Amounts.toCents a.overdue = .ok cents ∧ a.total = .ok total ∧
    total.toCents = .ok sum

theorem ArrearsPosition.Fits.exists_prepare {a : ArrearsPosition} (h : a.Fits) :
    ∃ e, a.prepare = .ok e := by
  obtain ⟨cents, total, sum, hcents, htotal, hsum⟩ := h
  unfold prepare
  rw [hcents, htotal]
  simp only [liftM, monadLift, MonadLift.monadLift, bind, Except.bind, hsum]
  exact ⟨_, rfl⟩

namespace Book

/-- The sums and differences of cents that the loans are aged by stay in range. -/
structure Fits (b : Book) (today : Date) : Prop where
  live : ∀ id l p, b.loans.find? id = some l → b.products.find? l.product = some p →
    l.isAgedInBulk p → l.FitsLive today (l.graceOf p)
  planned : ∀ id a, b.Replays id → b.writeOf id today .auto = .ok (.upsert a) → a.Fits

/-- Due dates have four-digit years. -/
structure HasFourDigitYears (b : Book) : Prop where
  live : ∀ id l, b.loans.find? id = some l → ∀ e ∈ l.schedule, e.dueDate.HasFourDigitYear
  planned : ∀ id l, b.loans.find? id = some l → ∀ e ∈ l.history, e.dueDate.HasFourDigitYear

/-- What the write of a loan leaves, if it can be computed and is not refused. -/
def expectedRow? (b : Book) (today : Date) (id : LoanId) : Option ArrearsEntry :=
  match b.entryOf id today with
  | .ok e => e
  | .error _ => none

variable {b : Book} {today : Date} {id : LoanId} {l : Loan} {p : Product}

/-! ## The bulk insert -/

/-- The bulk insert leaves what the write of a loan leaves, of the loans that it ages. -/
theorem bulkEntryOf_of_isAgedInBulk (hl : b.loans.find? id = some l)
    (hp : b.products.find? l.product = some p) (haged : l.isAgedInBulk p)
    (hfits : l.FitsLive today (l.graceOf p)) (htoday : today.HasFourDigitYear)
    (hyears : ∀ e ∈ l.schedule, e.dueDate.HasFourDigitYear) :
    b.bulkEntryOf today l = .ok (b.expectedRow? today id) := by
  obtain ⟨e, hbulk, hleaves⟩ := exists_bulkEntryOf hp haged hfits htoday hyears
  rw [hbulk]
  unfold expectedRow?
  cases hcutoff : today.cutoff (l.graceOf p) with
  | ok cutoff =>
    obtain ⟨t, hwrite, hcounts⟩ := exists_writeOf hl hp haged hfits hcutoff
    obtain ⟨e', hentry, hleaves'⟩ := hcounts.exists_leaves hfits.total id
    rw [entryOf_of_writeOf hwrite, hentry, hleaves.unique hleaves']
  | error c =>
    -- Without a cutoff nothing is overdue, and the write is not computed.
    have hwrite : b.writeOf id today .auto = .error (.crash c) := by
      rw [writeOf_of_isAgedInBulk hl hp haged hfits, hcutoff]
      rfl
    have hnone : l.overdueLive today (l.graceOf p) = [] := by
      rw [Loan.overdueLive, List.map_eq_nil_iff, List.filter_eq_nil_iff]
      intro e _
      have hlt := Date.lt_of_cutoff_eq_error hcutoff e.dueDate
      simp only [LiveEntry.isOverdue, Bool.and_eq_true, decide_eq_true_eq, not_and]
      omega
    have hempty : Outstanding.Leaves [] none := rfl
    rw [hnone] at hleaves
    rw [entryOf_of_writeOf_error hwrite, hleaves.unique hempty]

theorem Fits.bulkAccepts (hfits : b.Fits today) (htoday : today.HasFourDigitYear)
    (hyears : b.HasFourDigitYears) : b.BulkAccepts today := by
  intro id l hl
  by_cases haged : ∃ p, b.products.find? l.product = some p ∧ l.isAgedInBulk p
  · obtain ⟨p, hp, haged⟩ := haged
    exact ⟨_, bulkEntryOf_of_isAgedInBulk hl hp haged (hfits.live id l p hl hp haged) htoday
      (hyears.live id l hl)⟩
  · exact ⟨none, bulkEntryOf_of_not_isAgedInBulk fun p hp haged' => haged ⟨p, hp, haged'⟩⟩

/-- What the bulk insert leaves is expected, and it leaves nothing under other loans. -/
theorem Fits.bulkRow?_eq (hfits : b.Fits today) (htoday : today.HasFourDigitYear)
    (hyears : b.HasFourDigitYears) (hl : b.loans.find? id = some l)
    (hp : b.products.find? l.product = some p) :
    b.bulkRow? today id = if l.isAgedInBulk p then b.expectedRow? today id else none := by
  unfold bulkRow?
  rw [hl]
  by_cases haged : l.isAgedInBulk p
  · rw [if_pos haged]
    simp only [Option.bind, bulkEntryOf_of_isAgedInBulk hl hp haged (hfits.live id l p hl hp haged)
      htoday (hyears.live id l hl)]
  · have hnone : b.bulkEntryOf today l = .ok none := by
      apply bulkEntryOf_of_not_isAgedInBulk
      intro p' hp' haged'
      rw [hp] at hp'
      cases hp'
      exact haged haged'
    rw [if_neg haged]
    simp only [Option.bind, hnone]

/-! ## Loans in arrears -/

/-- A loan in arrears is aged in bulk, or it replays and is a candidate. -/
theorem isCandidate_of_upsert (htoday : today.HasFourDigitYear) (hyears : b.HasFourDigitYears)
    (hl : b.loans.find? id = some l) (hp : b.products.find? l.product = some p)
    (hactive : l.isActive) (hreplays : l.replays p) {a : ArrearsPosition}
    (h : b.writeOf id today .auto = .ok (.upsert a)) : b.isCandidate today l := by
  by_contra hcandidate
  cases writeOf_of_not_isCandidate hl hp hactive hreplays htoday (hyears.planned id l hl)
    hcandidate h

/-- The position of a loan in arrears counts what the loan owes, and has an entry. -/
theorem Fits.exists_counts (hfits : b.Fits today) (hb : b.Sound) {a : ArrearsPosition}
    (h : b.writeOf id today .auto = .ok (.upsert a)) :
    ∃ t os e, .upsert a = ArrearsWrite.ofTotals id t ∧ t.Counts os ∧
      b.entryOf id today = .ok (some e) ∧ e.Records os := by
  obtain ⟨l, p, hl, hp, hactive⟩ := exists_of_writeOf_eq_upsert h
  obtain ⟨t, os, ht, hcounts, htotal⟩ : ∃ t os, .upsert a = ArrearsWrite.ofTotals id t ∧
      t.Counts os ∧ Outstanding.total os < Bound.int64 := by
    by_cases hreplays : l.replays p
    · obtain ⟨t, os, ht, hcounts⟩ := exists_counts_of_replays hl hp hactive hreplays
        (hb.histories id l hl) h
      refine ⟨t, os, ht, hcounts, ?_⟩
      -- A total that is out of range would be refused when it is stored.
      by_contra htotal
      obtain ⟨since, -, rfl⟩ := hcounts.exists_since ht
      have hposition := hfits.planned id _ ((replays_iff hl hp hactive).2 hreplays) h
      obtain ⟨e, hok⟩ := hposition.exists_prepare
      obtain ⟨err, herror, -⟩ := hcounts.prepare_eq_error (Nat.not_lt.1 htotal) id since
      rw [hok] at herror
      cases herror
    · have haged : l.isAgedInBulk p := by simp [Loan.isAgedInBulk_eq, hactive, hreplays]
      have hlive := hfits.live id l p hl hp haged
      have hchain := h
      rw [writeOf_of_isAgedInBulk hl hp haged hlive] at hchain
      obtain ⟨cutoff, hcutoff, -⟩ := exists_of_bind_eq_ok hchain
      obtain ⟨t, hwrite, hcounts⟩ := exists_writeOf hl hp haged hlive (eq_ok_of_lift_crash hcutoff)
      rw [h] at hwrite
      exact ⟨t, _, Except.ok.inj hwrite, hcounts, hlive.total⟩
  obtain ⟨since, hsince, -⟩ := hcounts.exists_since ht
  obtain ⟨e, hentry, hrecords⟩ := hcounts.exists_entryLeft hsince htotal id
  refine ⟨t, os, e, ht, hcounts, ?_, hrecords⟩
  rw [entryOf_of_writeOf h, ht]
  exact hentry

theorem exists_upsert_of_entryOf {e : ArrearsEntry} (h : b.entryOf id today = .ok (some e)) :
    ∃ a, b.writeOf id today .auto = .ok (.upsert a) := by
  unfold entryOf at h
  obtain ⟨w, hw, hentry⟩ := exists_of_bind_eq_ok h
  cases w with
  | upsert a => exact ⟨a, hw⟩
  | delete loan => cases hentry

theorem mem_streamed_iff (hl : b.loans.find? id = some l) :
    id ∈ b.streamed today ↔ 0 < id ∧ b.isCandidate today l := by
  rw [streamed, List.mem_filter, mem_candidateIds_iff, decide_eq_true_iff, And.comm]
  refine and_congr_right fun _ => ⟨?_, fun h => ⟨l, hl, h⟩⟩
  rintro ⟨l', hl', hcandidate⟩
  rw [hl] at hl'
  cases hl'
  exact hcandidate

/-- What goes wrong with the loans that are posted is their data. -/
theorem Sound.failsByData (hb : b.Sound) (today : Date) :
    b.FailsByData today (b.streamed today) := by
  intro id hid f hf
  obtain ⟨l, hl, hcandidate⟩ := mem_candidateIds_iff.1 (List.mem_of_mem_filter hid)
  exact isData_of_isCandidate hl (hb.histories id l hl) hcandidate hf

/-- The bulk insert leaves what is expected under a loan, or nothing. -/
theorem Fits.bulkRow?_eq_or (hfits : b.Fits today) (hb : b.Sound) (htoday : today.HasFourDigitYear)
    (hyears : b.HasFourDigitYears) (id : LoanId) :
    b.bulkRow? today id = b.expectedRow? today id ∨ b.bulkRow? today id = none := by
  cases hl : b.loans.find? id with
  | none =>
    right
    rw [bulkRow?, hl]
    rfl
  | some l =>
    obtain ⟨p, hp⟩ := Option.isSome_iff_exists.1 (hb.references id l hl)
    rw [hfits.bulkRow?_eq htoday hyears hl hp]
    split
    · exact .inl rfl
    · exact .inr rfl

/-- A run leaves under a loan behind the first cursor what the write of the loan leaves. -/
theorem Fits.jobRow?_eq (hfits : b.Fits today) (hb : b.Sound) (htoday : today.HasFourDigitYear)
    (hyears : b.HasFourDigitYears) (hpos : 0 < id) :
    b.jobRow? today id = b.expectedRow? today id := by
  have hbulk := hfits.bulkRow?_eq_or hb htoday hyears id
  unfold jobRow?
  cases hentry : b.entryOf id today with
  | error f =>
    have hexpected : b.expectedRow? today id = none := by rw [expectedRow?, hentry]
    rw [hexpected] at hbulk ⊢
    exact or_self_iff.1 hbulk
  | ok e =>
    have hexpected : b.expectedRow? today id = e := by rw [expectedRow?, hentry]
    rw [hexpected] at hbulk ⊢
    dsimp only
    by_cases hposted : id ∈ b.streamed today
    · rw [if_pos hposted]
    rw [if_neg hposted]
    cases e with
    | none => exact or_self_iff.1 hbulk
    | some e =>
      obtain ⟨a, ha⟩ := exists_upsert_of_entryOf hentry
      obtain ⟨l, p, hl, hp, hactive⟩ := exists_of_writeOf_eq_upsert ha
      have hlive : ¬ l.replays p := by
        intro hreplays
        have hcandidate := isCandidate_of_upsert htoday hyears hl hp hactive hreplays ha
        exact hposted ((mem_streamed_iff hl).2 ⟨hpos, hcandidate⟩)
      have haged : l.isAgedInBulk p := by simp [Loan.isAgedInBulk_eq, hactive, hlive]
      rw [hfits.bulkRow?_eq htoday hyears hl hp, if_pos haged, hexpected]

/-! ## The division of the loans -/

/-- A loan in arrears has a row of the bulk insert when it does not replay. -/
theorem Fits.isSome_bulkRow?_iff (hfits : b.Fits today) (hb : b.Sound)
    (htoday : today.HasFourDigitYear) (hyears : b.HasFourDigitYears) {a : ArrearsPosition}
    (h : b.writeOf id today .auto = .ok (.upsert a)) :
    (b.bulkRow? today id).isSome ↔ ¬ b.Replays id := by
  obtain ⟨l, p, hl, hp, hactive⟩ := exists_of_writeOf_eq_upsert h
  obtain ⟨t, os, e, -, -, hentry, -⟩ := hfits.exists_counts hb h
  rw [hfits.bulkRow?_eq htoday hyears hl hp, replays_iff hl hp hactive, Loan.isAgedInBulk_eq,
    hactive, expectedRow?, hentry]
  cases l.replays p <;> simp

/-- A loan in arrears is posted when it replays and its id is behind the first cursor. -/
theorem mem_streamed_iff_of_upsert (htoday : today.HasFourDigitYear) (hyears : b.HasFourDigitYears)
    {a : ArrearsPosition} (h : b.writeOf id today .auto = .ok (.upsert a)) :
    id ∈ b.streamed today ↔ 0 < id ∧ b.Replays id := by
  obtain ⟨l, p, hl, hp, hactive⟩ := exists_of_writeOf_eq_upsert h
  rw [mem_streamed_iff hl, replays_iff hl hp hactive]
  refine and_congr_right fun _ => ⟨replays_of_isCandidate hp, fun hreplays => ?_⟩
  exact isCandidate_of_upsert htoday hyears hl hp hactive hreplays h

end Book

/-- What each of the passes does with a loan in arrears: the bulk insert gives it a row when it
    does not replay, and the pager hands it out once when it does and its id is behind the
    first cursor. -/
theorem passes_of_upsert {b : Book} (hb : b.IsBuilt) {today : Date}
    (htoday : today.HasFourDigitYear) (hyears : b.HasFourDigitYears) (hfits : b.Fits today)
    {id : LoanId} {a : ArrearsPosition} {s : Store}
    (hupsert : (computeWrite id today .auto : Act Store ArrearsWrite).exec
      ⟨some ⟨b, Table.empty⟩, false⟩ = (.ok (.upsert a), s)) (pageSize : Nat) :
    ∃ n t pages p,
      (ArrearsAccess.bulkInsert today : Act Store Nat).exec ⟨some ⟨b, Table.empty⟩, false⟩ =
        (.ok n, ⟨some ⟨b, t⟩, false⟩) ∧
      ((Pager.new today pageSize).drain : Act Store (List (List LoanId) × Pager)).exec
        ⟨some ⟨b, Table.empty⟩, false⟩ = (.ok (pages, p), ⟨some ⟨b, Table.empty⟩, false⟩) ∧
      ((t.find? id).isSome ↔ ¬ b.Replays id) ∧
      (pages.countP (id ∈ ·) = 1 ↔ 0 < id ∧ b.Replays id) := by
  have hbook : Store.HasBook ⟨some ⟨b, Table.empty⟩, false⟩ b := ⟨Table.empty, rfl⟩
  have hwrite : b.writeOf id today .auto = .ok (.upsert a) := by
    have hreads := hbook.reads_computeWrite id today .auto
    rw [Act.Reads, hupsert] at hreads
    exact (congrArg Prod.fst hreads).symm
  obtain ⟨n, t, hinsert, hrows⟩ := Book.exists_bulkInsert (hfits.bulkAccepts htoday hyears)
  obtain ⟨pages, p, hdrain, hflatten⟩ :=
    Pager.exists_drain hbook (fun id l hl => (hb.sound.ids id l hl).2) today pageSize
  have hstatement := @Job.exec_bulkInsert b today Table.empty
  rw [hinsert] at hstatement
  refine ⟨n, t, pages, p, hstatement, hdrain, ?_, ?_⟩
  · rw [hrows]
    exact hfits.isSome_bulkRow?_iff hb.sound htoday hyears hwrite
  · have hnodup : pages.flatten.Nodup := by
      rw [hflatten]
      exact ((b.ascending_candidateIds today).filter _).imp fun hlt => Int.ne_of_lt hlt
    rw [countP_pages hnodup, hflatten, ← Book.mem_streamed_iff_of_upsert htoday hyears hwrite]
    exact ite_eq_left_iff.trans ⟨fun h => by_contra fun hout => Nat.zero_ne_one (h hout),
      fun h hout => absurd h hout⟩

/-! ## A sample book -/

namespace Sample

variable {replaying : LoanId}

theorem eq_of_find?_book (h : replaying = 2 ∨ replaying = -5) {id : LoanId} {l : Loan}
    (hl : (book replaying).loans.find? id = some l) :
    id = 1 ∧ l = liveLoan ∨ id = replaying ∧ l = replayingLoan := by
  have hmem := Table.find?_eq_some_iff.1 hl
  rcases h with rfl | rfl
  · have hrows : (book 2).loans.rows = [(1, liveLoan), (2, replayingLoan)] := rfl
    simpa [hrows] using hmem
  · have hrows : (book (-5)).loans.rows = [(-5, replayingLoan), (1, liveLoan)] := rfl
    simpa [hrows, or_comm] using hmem

theorem writeOf_book (h : replaying = 2 ∨ replaying = -5) :
    (book replaying).writeOf replaying today .auto =
      .ok (.upsert ⟨replaying, Amounts.ofCents hundredCents, dueDate⟩) := by
  rcases h with rfl | rfl
  · decide +kernel
  · decide +kernel

theorem exec_computeWrite (h : replaying = 2 ∨ replaying = -5) :
    (computeWrite replaying today .auto : Act Store ArrearsWrite).exec
        ⟨some ⟨book replaying, Table.empty⟩, false⟩ =
      (.ok (.upsert ⟨replaying, Amounts.ofCents hundredCents, dueDate⟩),
        ⟨some ⟨book replaying, Table.empty⟩, false⟩) := by
  have hbook : Store.HasBook ⟨some ⟨book replaying, Table.empty⟩, false⟩ (book replaying) :=
    ⟨Table.empty, rfl⟩
  exact writeOf_book h ▸ hbook.reads_computeWrite replaying today .auto

theorem hasFourDigitYear_today : today.HasFourDigitYear :=
  Date.hasFourDigitYear_iff.2 (by decide)

theorem hasFourDigitYears_book (h : replaying = 2 ∨ replaying = -5) :
    (book replaying).HasFourDigitYears := by
  have hdue : dueDate.HasFourDigitYear := Date.hasFourDigitYear_iff.2 (by decide)
  constructor
  · intro id l hl e he
    rcases eq_of_find?_book h hl with ⟨-, rfl⟩ | ⟨-, rfl⟩
    · rw [List.mem_singleton.1 he]
      exact hdue
    · cases he
  · intro id l hl e he
    rcases eq_of_find?_book h hl with ⟨-, rfl⟩ | ⟨-, rfl⟩
    · cases he
    · rw [List.mem_singleton.1 he]
      exact hdue

theorem fitsLive_liveLoan : liveLoan.FitsLive today 0 where
  consumed e he i := by
    rw [List.mem_singleton.1 he]
    cases i <;> rfl
  outstanding e he _ i := by
    rw [List.mem_singleton.1 he]
    cases i <;> rfl
  total := by decide

theorem fits_book (h : replaying = 2 ∨ replaying = -5) : (book replaying).Fits today := by
  have hlive : (book replaying).products.find? 1 = some ⟨"live", false, 0⟩ := by
    rcases h with rfl | rfl <;> rfl
  have hplanned : (book replaying).products.find? 2 = some ⟨"planned", true, 0⟩ := by
    rcases h with rfl | rfl <;> rfl
  constructor
  · intro id l p hl hp haged
    rcases eq_of_find?_book h hl with ⟨-, rfl⟩ | ⟨-, rfl⟩
    · cases hlive.symm.trans hp
      exact fitsLive_liveLoan
    · cases hplanned.symm.trans hp
      cases haged
  · intro id a hreplays ha
    obtain ⟨l, p, hl, hp, hactive⟩ := Book.exists_of_writeOf_eq_upsert ha
    rw [Book.replays_iff hl hp hactive] at hreplays
    rcases eq_of_find?_book h hl with ⟨-, rfl⟩ | ⟨rfl, rfl⟩
    · cases hlive.symm.trans hp
      cases hreplays
    · rw [writeOf_book h] at ha
      cases ha
      have hcents : (Amounts.ofCents hundredCents).toCents = .ok hundredCents := by decide +kernel
      have htotal : (Amounts.ofCents hundredCents).total =
          .ok (Decimal.ofCents hundredCents.principal) := by decide +kernel
      have hsum : (Decimal.ofCents hundredCents.principal).toCents =
          .ok hundredCents.principal := by decide +kernel
      exact ⟨_, _, _, hcents, htotal, hsum⟩

end Sample

/-- Exactly one of the passes reaches a loan in arrears, the bulk insert with a row or the pager
    with one page that has its id, unless the loan replays its planned schedule and its id is
    not behind the first cursor. -/
theorem passes_divide_loans_iff {b : Book} (hb : b.IsBuilt) {today : Date}
    (htoday : today.HasFourDigitYear) (hyears : b.HasFourDigitYears) (hfits : b.Fits today)
    {id : LoanId} {a : ArrearsPosition} {s : Store}
    (hupsert : (computeWrite id today .auto : Act Store ArrearsWrite).exec
      ⟨some ⟨b, Table.empty⟩, false⟩ = (.ok (.upsert a), s)) (pageSize : Nat) :
    ∃ n t pages p,
      (ArrearsAccess.bulkInsert today : Act Store Nat).exec ⟨some ⟨b, Table.empty⟩, false⟩ =
        (.ok n, ⟨some ⟨b, t⟩, false⟩) ∧
      ((Pager.new today pageSize).drain : Act Store (List (List LoanId) × Pager)).exec
        ⟨some ⟨b, Table.empty⟩, false⟩ = (.ok (pages, p), ⟨some ⟨b, Table.empty⟩, false⟩) ∧
      (Xor (t.find? id).isSome (pages.countP (id ∈ ·) = 1) ↔ 0 < id ∨ ¬ b.Replays id) := by
  obtain ⟨n, t, pages, p, hbulk, hdrain, hrow, hpages⟩ :=
    passes_of_upsert hb htoday hyears hfits hupsert pageSize
  refine ⟨n, t, pages, p, hbulk, hdrain, ?_⟩
  rw [hrow, hpages, xor_def]
  by_cases hreplays : b.Replays id
  · simp [hreplays]
  · simp [hreplays]

/-- Loan 2 replays its planned schedule, and exactly one of the passes reaches it. -/
theorem passes_divide_sample :
    ∃ n t pages p,
      (ArrearsAccess.bulkInsert Sample.today : Act Store Nat).exec
        ⟨some ⟨Sample.book 2, Table.empty⟩, false⟩ = (.ok n, ⟨some ⟨Sample.book 2, t⟩, false⟩) ∧
      ((Pager.new Sample.today 10).drain : Act Store (List (List LoanId) × Pager)).exec
        ⟨some ⟨Sample.book 2, Table.empty⟩, false⟩ =
          (.ok (pages, p), ⟨some ⟨Sample.book 2, Table.empty⟩, false⟩) ∧
      Xor (t.find? 2).isSome (pages.countP (2 ∈ ·) = 1) := by
  obtain ⟨n, t, pages, p, hbulk, hdrain, hxor⟩ := passes_divide_loans_iff
    (Sample.isBuilt_book (by decide)) Sample.hasFourDigitYear_today
    (Sample.hasFourDigitYears_book (.inl rfl)) (Sample.fits_book (.inl rfl))
    (Sample.exec_computeWrite (.inl rfl)) 10
  exact ⟨n, t, pages, p, hbulk, hdrain, hxor.2 (.inl (by decide))⟩

/-- Loan -5 is in arrears like loan 2, but none of the passes reaches it. -/
theorem no_pass_reaches_negative_sample :
    (computeWrite (-5) Sample.today .auto : Act Store ArrearsWrite).exec
        ⟨some ⟨Sample.book (-5), Table.empty⟩, false⟩ =
      (.ok (.upsert ⟨-5, Amounts.ofCents Sample.hundredCents, Sample.dueDate⟩),
        ⟨some ⟨Sample.book (-5), Table.empty⟩, false⟩) ∧
    ∃ n t pages p,
      (ArrearsAccess.bulkInsert Sample.today : Act Store Nat).exec
        ⟨some ⟨Sample.book (-5), Table.empty⟩, false⟩ =
          (.ok n, ⟨some ⟨Sample.book (-5), t⟩, false⟩) ∧
      ((Pager.new Sample.today 10).drain : Act Store (List (List LoanId) × Pager)).exec
        ⟨some ⟨Sample.book (-5), Table.empty⟩, false⟩ =
          (.ok (pages, p), ⟨some ⟨Sample.book (-5), Table.empty⟩, false⟩) ∧
      ¬ Xor (t.find? (-5)).isSome (pages.countP (-5 ∈ ·) = 1) := by
  obtain ⟨n, t, pages, p, hbulk, hdrain, hrow, hpages⟩ := passes_of_upsert
    (Sample.isBuilt_book (by decide)) Sample.hasFourDigitYear_today
    (Sample.hasFourDigitYears_book (.inr rfl)) (Sample.fits_book (.inr rfl))
    (Sample.exec_computeWrite (.inr rfl)) 10
  refine ⟨Sample.exec_computeWrite (.inr rfl), n, t, pages, p, hbulk, hdrain, ?_⟩
  have hreplays : (Sample.book (-5)).Replays (-5) :=
    ⟨Sample.replayingLoan.activeTerms (-5) ⟨"planned", true, 0⟩, rfl, rfl⟩
  rw [hrow, hpages, xor_def]
  simp [hreplays]

end LoanArrears
