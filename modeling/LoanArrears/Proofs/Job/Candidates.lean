-- SUMMARY: What a fetch of candidates answers: the first loans behind an id that wait to be replayed, and every loan in arrears that replays is one of them.
import LoanArrears.Proofs.Job.Passes

/-!
# Candidates

A fetch compares texts of dates. `Book.AwaitsReplay` says of the dates themselves when a loan is a
candidate, and a fetch answers the first such loans behind an id (`IsFirst`). Not every candidate is
in arrears, but of the loans that replay their planned schedule only candidates are.
-/

namespace LoanArrears

/-! ## The first of many -/

/-- The first `n` ids behind `after` with a property. -/
structure IsFirst (P : LoanId → Prop) (after : LoanId) (n : Nat) (ids : List LoanId) : Prop where
  ascending : ids.Pairwise (· < ·)
  sound : ∀ id ∈ ids, after < id ∧ P id
  length_le : ids.length ≤ n
  /-- An id is left out only behind `n` others. -/
  full : ∀ id, after < id → P id → id ∉ ids → ids.length = n ∧ ∀ first ∈ ids, first < id

theorem isFirst_take {P : LoanId → Prop} {after : LoanId} {ids : List LoanId}
    (hascending : ids.Pairwise (· < ·)) (hmem : ∀ id, id ∈ ids ↔ after < id ∧ P id) (n : Nat) :
    IsFirst P after n (ids.take n) where
  ascending := hascending.sublist (List.take_sublist n ids)
  sound id hid := (hmem id).1 (List.mem_of_mem_take hid)
  length_le := List.length_take_le n ids
  full id hafter hP hid := by
    rw [← List.take_append_drop n ids] at hascending
    have hdrop : id ∈ ids.drop n := by
      have hids : id ∈ ids.take n ++ ids.drop n := by
        rw [List.take_append_drop]
        exact (hmem id).2 ⟨hafter, hP⟩
      exact (List.mem_append.1 hids).resolve_left hid
    constructor
    · have hlength : 0 < (ids.drop n).length := List.length_pos_of_mem hdrop
      simp only [List.length_drop] at hlength
      simp only [List.length_take]
      omega
    · intro first hfirst
      exact (List.pairwise_append.1 hascending).2.2 first hfirst id hdrop

/-! ## Loans that await their replay -/

/-- A due date is before the text of a cutoff when it is before the cutoff. -/
theorem Date.isBeforeText_iff {due today : Date} (hdue : due.HasFourDigitYear)
    (htoday : today.HasFourDigitYear) (grace : Nat) :
    due.isBeforeText (today.cutoffText? grace) ↔
      ∃ cutoff, today.cutoff grace = .ok cutoff ∧ due.before cutoff := by
  constructor
  · intro h
    obtain ⟨cutoff, hcutoff⟩ := exists_cutoff h
    simp only [isBeforeText_cutoffText? hdue htoday] at h
    refine ⟨cutoff, hcutoff, ?_⟩
    rwa [before, number_of_cutoff hcutoff]
  · rintro ⟨cutoff, hcutoff, h⟩
    rw [isBeforeText_cutoffText? hdue htoday]
    rwa [before, number_of_cutoff hcutoff] at h

namespace Book

/-- An active loan whose product ages by the planned schedule, with an installment of it due
    before the cutoff. -/
def AwaitsReplay (b : Book) (today : Date) (id : LoanId) : Prop :=
  ∃ l p, b.loans.find? id = some l ∧ b.products.find? l.product = some p ∧
    l.status = Status.active.code ∧ p.byPlannedSchedule ∧
    ∃ e ∈ l.history, (∀ other ∈ l.history, e.version ≤ other.version) ∧
      ∃ cutoff, today.cutoff (l.grace.getD p.grace) = .ok cutoff ∧ e.dueDate.before cutoff

variable {b : Book} {today : Date} {id : LoanId}

theorem mem_candidateIds_iff_awaitsReplay (htoday : today.HasFourDigitYear)
    (hyears : b.HasFourDigitYears) : id ∈ b.candidateIds today ↔ b.AwaitsReplay today id := by
  have hbefore {l : Loan} (hl : b.loans.find? id = some l) {e : HistoryEntry}
      (he : e ∈ l.history) (grace : Nat) :=
    Date.isBeforeText_iff (hyears.planned id l hl e he) htoday grace
  rw [mem_candidateIds_iff]
  constructor
  · rintro ⟨l, hl, hcandidate⟩
    obtain ⟨p, hp⟩ := exists_product_of_isCandidate hcandidate
    obtain ⟨hactive, hplanned, e, he, hdue⟩ := (isCandidate_iff hp).1 hcandidate
    obtain ⟨hmem, hfirst⟩ := Loan.mem_plannedEntries_iff.1 he
    exact ⟨l, p, hl, hp, of_decide_eq_true hactive, hplanned, e, hmem, hfirst,
      (hbefore hl hmem _).1 hdue⟩
  · rintro ⟨l, p, hl, hp, hactive, hplanned, e, hmem, hfirst, hdue⟩
    have he := Loan.mem_plannedEntries_iff.2 ⟨hmem, hfirst⟩
    exact ⟨l, hl, (isCandidate_iff hp).2
      ⟨decide_eq_true hactive, hplanned, e, he, (hbefore hl hmem _).2 hdue⟩⟩

/-- A fetch is limited to its page, in a book with fewer loans than an unlimited page has. -/
theorem candidates_eq_take (hloans : b.loanCount < unlimitedPage) (after : LoanId)
    (pageSize : Nat) :
    b.candidates after pageSize today =
      ((b.candidateIds today).filter (after < ·)).take pageSize := by
  rw [candidates_eq]
  split
  · rfl
  · next hpage =>
    have hids : ((b.candidateIds today).filter (after < ·)).length ≤ b.loanCount := by
      calc ((b.candidateIds today).filter (after < ·)).length
          ≤ (b.candidateIds today).length := List.length_filter_le ..
        _ ≤ b.loanCount := by
          simp only [candidateIds, List.length_map]
          exact List.length_filter_le ..
    exact (List.take_of_length_le (by omega)).symm

theorem isFirst_candidates (hloans : b.loanCount < unlimitedPage)
    (htoday : today.HasFourDigitYear) (hyears : b.HasFourDigitYears) (after : LoanId)
    (pageSize : Nat) :
    IsFirst (b.AwaitsReplay today) after pageSize (b.candidates after pageSize today) := by
  rw [candidates_eq_take hloans]
  apply isFirst_take ((b.ascending_candidateIds today).filter (after < ·))
  intro id
  rw [List.mem_filter, mem_candidateIds_iff_awaitsReplay htoday hyears, decide_eq_true_iff,
    And.comm]

/-- A loan in arrears that replays its planned schedule awaits its replay. -/
theorem awaitsReplay_of_upsert (htoday : today.HasFourDigitYear) (hyears : b.HasFourDigitYears)
    (hreplays : b.Replays id) {a : ArrearsPosition}
    (h : b.writeOf id today .auto = .ok (.upsert a)) : b.AwaitsReplay today id := by
  obtain ⟨l, p, hl, hp, hactive⟩ := exists_of_writeOf_eq_upsert h
  have hcandidate :=
    isCandidate_of_upsert htoday hyears hl hp hactive ((replays_iff hl hp hactive).1 hreplays) h
  exact (mem_candidateIds_iff_awaitsReplay htoday hyears).1
    (mem_candidateIds_iff.2 ⟨l, hl, hcandidate⟩)

end Book

/-- A fetch answers the first loans behind an id that await their replay, as many as a page
    holds, and a loan in arrears that replays awaits its replay. Tables hold fewer rows than an
    unlimited page. -/
theorem candidates_hide_no_arrears {b : Book} (hloans : b.loanCount < Book.unlimitedPage)
    {today : Date} (htoday : today.HasFourDigitYear) (hyears : b.HasFourDigitYears) {s : Store}
    (hs : s.HasBook b) (after : LoanId) (pageSize : Nat) :
    (∃ ids, (BookAccess.candidates after pageSize today : Act Store (List LoanId)).exec s =
        (.ok ids, s) ∧ IsFirst (b.AwaitsReplay today) after pageSize ids) ∧
      ∀ id a, after < id → b.Replays id →
        ((computeWrite id today .auto : Act Store ArrearsWrite).exec s).1 = .ok (.upsert a) →
        b.AwaitsReplay today id := by
  constructor
  · exact ⟨_, hs.reads_candidates after pageSize today,
      Book.isFirst_candidates hloans htoday hyears after pageSize⟩
  · intro id a _ hreplays hupsert
    rw [hs.computeWrite_eq] at hupsert
    exact Book.awaitsReplay_of_upsert htoday hyears hreplays hupsert

/-- Loan 2 is in arrears and replays its planned schedule: it is on a page of one. -/
theorem candidates_hide_no_arrears_sample :
    ∃ ids, (BookAccess.candidates 0 1 Sample.today : Act Store (List LoanId)).exec
        ⟨some ⟨Sample.book 2, Table.empty⟩, false⟩ =
          (.ok ids, ⟨some ⟨Sample.book 2, Table.empty⟩, false⟩) ∧
      IsFirst ((Sample.book 2).AwaitsReplay Sample.today) 0 1 ids ∧
      (Sample.book 2).AwaitsReplay Sample.today 2 := by
  obtain ⟨⟨ids, hfetch, hfirst⟩, harrears⟩ := candidates_hide_no_arrears (b := Sample.book 2)
    (by decide) Sample.hasFourDigitYear_today (Sample.hasFourDigitYears_book (.inl rfl))
    (s := ⟨some ⟨Sample.book 2, Table.empty⟩, false⟩) ⟨Table.empty, rfl⟩ 0 1
  have hreplays : (Sample.book 2).Replays 2 :=
    ⟨Sample.replayingLoan.activeTerms 2 ⟨"planned", true, 0⟩, rfl, rfl⟩
  exact ⟨ids, hfetch, hfirst, harrears 2 _ (by decide) hreplays
    (by rw [Sample.exec_computeWrite (.inl rfl)])⟩

end LoanArrears
