-- SUMMARY: The write of a loan as a function of the loan book: computing it only reads the book, and only the loan and its product.
import LoanArrears.Proofs.Act
import LoanArrears.Proofs.Arrears.Entry
import LoanArrears.Recompute
import LoanArrears.Store.Basic

/-!
# The write of a loan

`Book.writeOf` is the write that `computeWrite` computes on a store with the book, whatever
the arrears table of that store holds. It depends on the loan and its product only
(`Book.SameLoan`), so whatever happens to other loans leaves it as it is.
-/

namespace LoanArrears

/-! ## Reading the book of a store -/

/-- The store is migrated and holds the book. -/
def Store.HasBook (s : Store) (b : Book) : Prop :=
  ∃ arrears, s.tables = some ⟨b, arrears⟩

namespace Store

variable {s : Store} {b : Book}

theorem HasBook.reads_queryBook (h : s.HasBook b) (table : String) (f : Book → Except Error α) :
    (reading (queryBook table f) : Act Store α).Reads s (liftM (f b)) := by
  obtain ⟨arrears, hs⟩ := h
  cases s
  cases hs
  show (statement false (queryBook table f)).exec _ = _
  rw [exec_statement, queryBook, query, update, Act.exec_ofExec]
  dsimp only
  cases f b <;> rfl

theorem HasBook.reads_candidates (h : s.HasBook b) (after : LoanId) (pageSize : Nat)
    (today : Date) :
    (BookAccess.candidates after pageSize today : Act Store (List LoanId)).Reads s
      (.ok (b.candidates after pageSize today)) :=
  h.reads_queryBook Names.loan fun b => .ok (b.candidates after pageSize today)

theorem HasBook.reads_plannedInstallments (h : s.HasBook b) (loan : LoanId) :
    (BookAccess.plannedInstallments loan : Act Store (List PlannedInstallment)).Reads s
      (.ok (b.plannedInstallments loan)) :=
  h.reads_queryBook Names.history fun b => .ok (b.plannedInstallments loan)

theorem HasBook.reads_liveInstallments (h : s.HasBook b) (loan : LoanId) :
    (BookAccess.liveInstallments loan : Act Store (List LiveInstallment)).Reads s
      (liftM (b.liveInstallments loan)) :=
  h.reads_queryBook Names.schedule (·.liveInstallments loan)

theorem HasBook.reads_consumption (h : s.HasBook b) (loan : LoanId) :
    (BookAccess.consumption loan : Act Store Consumption).Reads s (liftM (b.consumption loan)) :=
  h.reads_queryBook Names.loan (·.consumption loan)

theorem HasBook.reads_terms (h : s.HasBook b) (loan : LoanId) :
    (BookAccess.terms loan : Act Store AgingTerms).Reads s (liftM (b.terms loan)) :=
  h.reads_queryBook Names.loan (·.terms loan)

end Store

/-! ## The write of a loan -/

/-- The terms of a loan while it is active. -/
def Loan.activeTerms (l : Loan) (id : LoanId) (p : Product) : AgingTerms where
  loan := id
  status := .active
  product := l.product
  byPlannedSchedule := p.byPlannedSchedule
  grace := l.graceOf p
  hasHistory := !l.history.isEmpty

/-- An active loan is aged by its planned schedule. -/
def Loan.replays (l : Loan) (p : Product) : Bool :=
  p.byPlannedSchedule && !l.history.isEmpty

namespace Book

/-- The loan ages by its planned schedule and has one. -/
def Replays (b : Book) (loan : LoanId) : Prop :=
  ∃ terms, b.terms loan = .ok terms ∧ terms.replaysPlanned = true

/-- Totals of the planned schedule; none for a loan without one. -/
def plannedTotals? (b : Book) (terms : AgingTerms) (today : Date) :
    Except Fault (Option Totals) := do
  if !terms.hasHistory then return none
  let schedule := b.plannedInstallments terms.loan
  if schedule.isEmpty then return none
  validateSchedule terms.loan schedule
  let lifetime ← b.consumption terms.loan
  lifetime.validate
  let allocated ← allocate schedule lifetime.consumed
  let cutoff ← today.cutoff terms.grace
  let totals ← Totals.ofAllocation allocated cutoff
  return some totals

def liveTotals (b : Book) (terms : AgingTerms) (today : Date) : Except Fault Totals := do
  let rows ← b.liveInstallments terms.loan
  let cutoff ← today.cutoff terms.grace
  Totals.ofLive rows cutoff

/-- The write of a loan that is active. -/
def activeWriteOf (b : Book) (terms : AgingTerms) (today : Date) (mode : AgingMode) :
    Except Fault ArrearsWrite := do
  let replayed ←
    if mode = .auto ∧ terms.replaysPlanned then b.plannedTotals? terms today else pure none
  let totals ← match replayed with
    | some totals => pure totals
    | none => b.liveTotals terms today
  return .ofTotals terms.loan totals

/-- The write that brings the row of a loan in line with the book. -/
def writeOf (b : Book) (loan : LoanId) (today : Date) (mode : AgingMode) :
    Except Fault ArrearsWrite := do
  let terms ← b.terms loan
  if !terms.status.isActive then return .delete loan
  b.activeWriteOf terms today mode

/-- What the write of a loan leaves under the loan in the arrears table. -/
def entryOf (b : Book) (loan : LoanId) (today : Date) : Except Fault (Option ArrearsEntry) := do
  (← b.writeOf loan today .auto).entryLeft

theorem loan_of_terms {b : Book} {loan : LoanId} {terms : AgingTerms}
    (h : b.terms loan = .ok terms) : terms.loan = loan := by
  unfold Book.terms at h
  split at h
  · split at h
    · cases h
      rfl
    · cases h
  · cases h

/-- Terms come from a loan, its product and a declared status. -/
theorem exists_of_terms {b : Book} {id : LoanId} {terms : AgingTerms} (h : b.terms id = .ok terms) :
    ∃ l p, b.loans.find? id = some l ∧ b.products.find? l.product = some p ∧
      Status.ofCode? l.status = some terms.status := by
  unfold Book.terms loanWithProduct? at h
  cases hl : b.loans.find? id with
  | none => simp [hl] at h
  | some l =>
    cases hp : b.products.find? l.product with
    | none => simp [hl, hp] at h
    | some p =>
      simp only [hl, hp, bind, Option.bind, pure] at h
      split at h
      · next status hcode =>
        cases h
        exact ⟨l, p, rfl, hp, hcode⟩
      · cases h

theorem terms_of_isActive {b : Book} {id : LoanId} {l : Loan} {p : Product}
    (hl : b.loans.find? id = some l) (hp : b.products.find? l.product = some p)
    (hactive : l.isActive) : b.terms id = .ok (l.activeTerms id p) := by
  have hstatus : Status.ofCode? l.status = some .active := by
    rw [show l.status = Status.active.code from of_decide_eq_true hactive]
    exact Status.ofCode?_code .active
  have hpair : b.loanWithProduct? id = some (l, p) := by
    unfold loanWithProduct?
    rw [hl]
    simp only [bind, Option.bind, hp]
    rfl
  unfold Book.terms
  rw [hpair]
  simp only [hstatus]
  rfl

/-- The terms of a loan whose status is active are its active terms. -/
theorem exists_activeTerms {b : Book} {id : LoanId} {terms : AgingTerms}
    (h : b.terms id = .ok terms) (hactive : terms.status.isActive) :
    ∃ l p, b.loans.find? id = some l ∧ b.products.find? l.product = some p ∧ l.isActive ∧
      terms = l.activeTerms id p := by
  obtain ⟨l, p, hl, hp, hcode⟩ := exists_of_terms h
  have hstatus : terms.status = .active := by simpa [Status.isActive] using hactive
  have hloan : l.isActive := by
    rw [Loan.isActive, ← Status.code_of_ofCode? hcode, hstatus]
    rfl
  rw [terms_of_isActive hl hp hloan] at h
  exact ⟨l, p, hl, hp, hloan, (Except.ok.inj h).symm⟩

theorem writeOf_of_terms {b : Book} {loan : LoanId} {terms : AgingTerms}
    (h : b.terms loan = .ok terms) (today : Date) (mode : AgingMode) :
    b.writeOf loan today mode =
      if !terms.status.isActive then .ok (.delete loan) else b.activeWriteOf terms today mode := by
  unfold writeOf
  rw [h]
  rfl

theorem writeOf_of_isActive {b : Book} {id : LoanId} {l : Loan} {p : Product}
    (hl : b.loans.find? id = some l) (hp : b.products.find? l.product = some p)
    (hactive : l.isActive) (today : Date) (mode : AgingMode) :
    b.writeOf id today mode = b.activeWriteOf (l.activeTerms id p) today mode := by
  rw [writeOf_of_terms (terms_of_isActive hl hp hactive)]
  exact if_neg Bool.false_ne_true

theorem replays_iff {b : Book} {id : LoanId} {l : Loan} {p : Product}
    (hl : b.loans.find? id = some l) (hp : b.products.find? l.product = some p)
    (hactive : l.isActive) : b.Replays id ↔ l.replays p := by
  have hterms := terms_of_isActive hl hp hactive
  constructor
  · rintro ⟨terms, h, hreplays⟩
    rw [hterms] at h
    cases h
    exact hreplays
  · intro hreplays
    exact ⟨l.activeTerms id p, hterms, hreplays⟩

/-- A loan that is in arrears is active, and has its product. -/
theorem exists_of_writeOf_eq_upsert {b : Book} {id : LoanId} {today : Date} {mode : AgingMode}
    {a : ArrearsPosition} (h : b.writeOf id today mode = .ok (.upsert a)) :
    ∃ l p, b.loans.find? id = some l ∧ b.products.find? l.product = some p ∧ l.isActive := by
  cases hterms : b.terms id with
  | error e =>
    unfold writeOf at h
    rw [hterms] at h
    cases h
  | ok terms =>
    rw [writeOf_of_terms hterms] at h
    split at h
    · cases h
    · next hstatus =>
      obtain ⟨l, p, hl, hp, hactive, -⟩ := exists_activeTerms hterms (by simpa using hstatus)
      exact ⟨l, p, hl, hp, hactive⟩

theorem writeOf_of_terms_error {b : Book} {loan : LoanId} {e : Error}
    (h : b.terms loan = .error e) (today : Date) (mode : AgingMode) :
    b.writeOf loan today mode = .error (.error e) := by
  unfold writeOf
  rw [h]
  rfl

/-- A loan that is not replayed is aged by its live schedule. -/
theorem activeWriteOf_live {b : Book} {terms : AgingTerms} {today : Date} {mode : AgingMode}
    (h : ¬(mode = .auto ∧ terms.replaysPlanned)) :
    b.activeWriteOf terms today mode =
      (do return .ofTotals terms.loan (← b.liveTotals terms today)) := by
  unfold activeWriteOf
  rw [if_neg h]
  rfl

theorem activeWriteOf_replayed {b : Book} {terms : AgingTerms} {today : Date}
    (h : terms.replaysPlanned) :
    b.activeWriteOf terms today .auto = (do
      match ← b.plannedTotals? terms today with
      | some totals => return .ofTotals terms.loan totals
      | none => return .ofTotals terms.loan (← b.liveTotals terms today)) := by
  unfold activeWriteOf
  rw [if_pos ⟨rfl, h⟩]
  rfl

theorem exists_totals_of_activeWriteOf {b : Book} {terms : AgingTerms} {today : Date}
    {mode : AgingMode} {w : ArrearsWrite} (h : b.activeWriteOf terms today mode = .ok w) :
    ∃ totals, w = .ofTotals terms.loan totals := by
  by_cases hmode : mode = .auto ∧ terms.replaysPlanned
  · obtain ⟨rfl, hreplays⟩ := hmode
    rw [activeWriteOf_replayed hreplays] at h
    obtain ⟨replayed, -, h⟩ := exists_of_bind_eq_ok h
    cases replayed with
    | some totals =>
      cases h
      exact ⟨totals, rfl⟩
    | none =>
      obtain ⟨totals, -, h⟩ := exists_of_bind_eq_ok h
      cases h
      exact ⟨totals, rfl⟩
  · rw [activeWriteOf_live hmode] at h
    obtain ⟨totals, -, h⟩ := exists_of_bind_eq_ok h
    cases h
    exact ⟨totals, rfl⟩

theorem loan_of_writeOf {b : Book} {loan : LoanId} {today : Date} {mode : AgingMode}
    {w : ArrearsWrite} (h : b.writeOf loan today mode = .ok w) : w.loan = loan := by
  cases hterms : b.terms loan with
  | error e =>
    rw [writeOf_of_terms_error hterms] at h
    cases h
  | ok terms =>
    rw [writeOf_of_terms hterms] at h
    split at h
    · cases h
      rfl
    obtain ⟨totals, rfl⟩ := exists_totals_of_activeWriteOf h
    rw [ArrearsWrite.loan_ofTotals, loan_of_terms hterms]

end Book

namespace Store.HasBook

variable {s : Store} {b : Book}

theorem reads_plannedArrears (h : s.HasBook b) (terms : AgingTerms) (today : Date) :
    (plannedArrears terms today : Act Store (Option Totals)).Reads s
      (b.plannedTotals? terms today) := by
  unfold plannedArrears Book.plannedTotals?
  split
  · exact .pure none
  refine .bind_ok (h.reads_plannedInstallments terms.loan) ?_
  dsimp only
  split
  · exact .pure none
  refine .bind (.lift_error _) fun _ => ?_
  refine .bind (h.reads_consumption terms.loan) fun lifetime => ?_
  refine .bind (.lift_error _) fun _ => ?_
  refine .bind (.lift_crash _) fun allocated => ?_
  refine .bind (.lift_crash _) fun cutoff => ?_
  refine .bind (.lift_crash _) fun totals => ?_
  exact .pure (some totals)

theorem reads_liveArrears (h : s.HasBook b) (terms : AgingTerms) (today : Date) :
    (liveArrears terms today : Act Store Totals).Reads s (b.liveTotals terms today) := by
  unfold liveArrears Book.liveTotals
  refine .bind (h.reads_liveInstallments terms.loan) fun rows => ?_
  refine .bind (.lift_crash _) fun cutoff => ?_
  exact .lift_crash _

/-- Computing the write of a loan reads it off the book. -/
theorem reads_computeWrite (h : s.HasBook b) (loan : LoanId) (today : Date) (mode : AgingMode) :
    (computeWrite loan today mode : Act Store ArrearsWrite).Reads s
      (b.writeOf loan today mode) := by
  unfold computeWrite Book.writeOf
  cases hterms : b.terms loan with
  | error e =>
    refine Act.exec_bind_error (t := s) ?_
    rw [h.reads_terms loan, hterms]
    rfl
  | ok terms =>
    have hreads : (BookAccess.terms loan : Act Store AgingTerms).Reads s (.ok terms) := by
      have hreads := h.reads_terms loan
      rw [hterms] at hreads
      exact hreads
    refine .bind_ok hreads ?_
    show Act.Reads _ s (if !terms.status.isActive then .ok (.delete loan)
      else b.activeWriteOf terms today mode)
    split
    · exact .pure _
    have hloan : terms.loan = loan := Book.loan_of_terms hterms
    unfold Book.activeWriteOf
    rw [hloan]
    dsimp only
    split
    · refine .bind (h.reads_plannedArrears terms today) fun replayed => ?_
      cases replayed with
      | some totals => exact .pure _
      | none => exact .bind (h.reads_liveArrears terms today) fun totals => .pure _
    · have hlive : Act.Reads (liveArrears terms today >>= fun totals =>
          pure (ArrearsWrite.ofTotals loan totals)) s
          (b.liveTotals terms today >>= fun totals => pure (.ofTotals loan totals)) :=
        .bind (h.reads_liveArrears terms today) fun totals => .pure _
      exact .bind_ok (.pure none) hlive

theorem computeWrite_eq (h : s.HasBook b) (loan : LoanId) (today : Date) (mode : AgingMode) :
    ((computeWrite loan today mode : Act Store ArrearsWrite).exec s).1 =
      b.writeOf loan today mode :=
  congrArg Prod.fst (h.reads_computeWrite loan today mode)

end Store.HasBook

/-! ## What the write depends on -/

/-- The write is made of the terms, the two schedules and the consumption of the loan. -/
theorem Book.writeOf_congr {b b' : Book} {loan : LoanId} (hterms : b'.terms loan = b.terms loan)
    (hplanned : b'.plannedInstallments loan = b.plannedInstallments loan)
    (hlive : b'.liveInstallments loan = b.liveInstallments loan)
    (hconsumption : b'.consumption loan = b.consumption loan) (today : Date) (mode : AgingMode) :
    b'.writeOf loan today mode = b.writeOf loan today mode := by
  unfold Book.writeOf
  rw [hterms]
  cases hread : b.terms loan with
  | error e => rfl
  | ok terms =>
    have hloan : terms.loan = loan := loan_of_terms hread
    have hplanned : b'.plannedTotals? terms today = b.plannedTotals? terms today := by
      simp only [plannedTotals?, hloan, hplanned, hconsumption]
    have hlive : b'.liveTotals terms today = b.liveTotals terms today := by
      simp only [liveTotals, hloan, hlive]
    have hactive : b'.activeWriteOf terms today mode = b.activeWriteOf terms today mode := by
      simp only [activeWriteOf, hplanned, hlive]
    show (if !terms.status.isActive then Except.ok (ArrearsWrite.delete loan)
        else b'.activeWriteOf terms today mode) =
      (if !terms.status.isActive then .ok (.delete loan) else b.activeWriteOf terms today mode)
    rw [hactive]

/-- The books have the same loan with the same product, or both do not have it. -/
structure Book.SameLoan (b b' : Book) (loan : LoanId) : Prop where
  find? : b'.loans.find? loan = b.loans.find? loan
  product : ∀ l, b.loans.find? loan = some l →
    b'.products.find? l.product = b.products.find? l.product

namespace Book.SameLoan

variable {b b' : Book} {loan : LoanId}

theorem loanWithProduct?_eq (h : b.SameLoan b' loan) :
    b'.loanWithProduct? loan = b.loanWithProduct? loan := by
  unfold loanWithProduct?
  rw [h.find?]
  cases hl : b.loans.find? loan with
  | none => rfl
  | some l => simp only [bind, Option.bind, h.product l hl]

theorem terms_eq (h : b.SameLoan b' loan) : b'.terms loan = b.terms loan := by
  unfold Book.terms
  rw [h.loanWithProduct?_eq]

theorem writeOf_eq (h : b.SameLoan b' loan) (today : Date) (mode : AgingMode) :
    b'.writeOf loan today mode = b.writeOf loan today mode := by
  refine writeOf_congr h.terms_eq ?_ ?_ ?_ today mode
  · simp only [plannedInstallments, h.find?]
  · simp only [liveInstallments, h.find?]
  · simp only [consumption, h.find?]

theorem entryOf_eq (h : b.SameLoan b' loan) (today : Date) :
    b'.entryOf loan today = b.entryOf loan today := by
  unfold Book.entryOf
  rw [h.writeOf_eq]

end Book.SameLoan

end LoanArrears
