-- SUMMARY: Schedules that were inserted are loaded as they were inserted, in the order of due dates, and the order of the inserts does not matter.
import LoanArrears.Proofs.Book.DueOrder
import LoanArrears.Proofs.Book.Inserting
import LoanArrears.Proofs.Book.Planned
import LoanArrears.Proofs.Decimal.Nearest
import Mathlib.Data.List.Perm.Basic

/-!
# Loading what was inserted

Each row becomes an entry of its loan (`LiveRow.Becomes`), and an entry is loaded with its amounts
in cents (`LiveRow.LoadedAs`). The installments of a schedule have numbers of their own, so the
schedule that is loaded is sorted in one way only. What is computed for a loan is made of the
schedules that are loaded, so it is the same for any order of the inserts.
-/

namespace LoanArrears

/-! ## Loaded rows -/

namespace LiveRow

/-- Completed, waived and written off in cents, each rounded by itself. -/
def consumedCents (r : LiveRow) (i : Bucket) : Int :=
  (r.completed.get i).nearestCents + (r.waived.get i).nearestCents +
    (r.writtenOff.get i).nearestCents

/-- The sums that are taken of the row are in range. -/
def SumsFit (r : LiveRow) : Prop :=
  ∀ i, Cents.InRange ((r.completed.get i).nearestCents + (r.waived.get i).nearestCents) ∧
    Cents.InRange (r.consumedCents i)

instance (r : LiveRow) : Decidable r.SumsFit :=
  inferInstanceAs (Decidable (∀ _ : Bucket, (_ ∧ _) ∧ _ ∧ _))

/-- The installment is the row, with its amounts in cents. -/
structure LoadedAs (r : LiveRow) (i : LiveInstallment) : Prop where
  installment : i.installment = r.installment
  dueDate : i.dueDate = r.dueDate
  due : ∀ k, ∃ c, i.due.get k = .ofCents c ∧ c.val = (r.due.get k).nearestCents
  consumed : ∀ k, ∃ c, i.consumed.get k = .ofCents c ∧ c.val = r.consumedCents k
  completed : i.completed = r.fullyCompleted

end LiveRow

/-- The installment is the row, with its amounts in cents. -/
structure HistoryRow.LoadedAs (r : HistoryRow) (i : PlannedInstallment) : Prop where
  installment : i.installment = r.installment
  dueDate : i.dueDate = r.dueDate
  due : ∀ k, ∃ c, i.due.get k = .ofCents c ∧ c.val = (r.due.get k).nearestCents

/-- Amounts in cents are the nearest cents of each of them. -/
theorem Amounts.val_of_toCents {a : Amounts} {c : Buckets Cents} (h : Amounts.toCents a = .ok c)
    (i : Bucket) : (c.get i).val = (a.get i).nearestCents :=
  Decimal.toCents_eq_ok_iff.1 (Buckets.mapM_eq_ok_iff.1 h i)

theorem Amounts.get_ofCents (c : Buckets Cents) (i : Bucket) :
    (Amounts.ofCents c).get i = .ofCents (c.get i) :=
  Buckets.get_map _ _ _

namespace LiveRow.Becomes

variable {r : LiveRow} {e : LiveEntry}

/-- The sums of the row are taken exactly. -/
theorem consumed_eq (h : r.Becomes e) (hsums : r.SumsFit) (i : Bucket) :
    ∃ c, e.consumed.get i = .exact c ∧ c.val = r.consumedCents i := by
  obtain ⟨completed, hcompleted, hexact⟩ := h.completed
  obtain ⟨c, hc⟩ := Cents.exists_of_inRange (hsums i).1
  obtain ⟨total, htotal⟩ := Cents.exists_of_inRange (hsums i).2
  have hfirst : Stored.add (.exact (completed.get i)) (.exact (e.waived.get i)) = .exact c := by
    refine Stored.add_exact ?_
    rw [Amounts.val_of_toCents hcompleted, Amounts.val_of_toCents h.waived]
    exact hc
  have hsecond : Stored.add (.exact c) (.exact (e.writtenOff.get i)) = .exact total := by
    refine Stored.add_exact ?_
    rw [Cents.val_of_ofInt? hc, Amounts.val_of_toCents h.writtenOff]
    exact htotal
  refine ⟨total, ?_, Cents.val_of_ofInt? htotal⟩
  simp only [LiveEntry.consumed, hexact, exactly, Buckets.get_zipWith, Buckets.get_map, hfirst,
    hsecond]

theorem isExact_consumed (h : r.Becomes e) (hsums : r.SumsFit) (i : Bucket) :
    (e.consumed.get i).isExact := by
  obtain ⟨c, hc, -⟩ := h.consumed_eq hsums i
  rw [hc]
  rfl

theorem loadedAs (h : r.Becomes e) (hsums : r.SumsFit) : r.LoadedAs e.row where
  installment := h.installment
  dueDate := h.dueDate
  due k := ⟨_, Amounts.get_ofCents e.due k, Amounts.val_of_toCents h.due k⟩
  consumed k := by
    obtain ⟨c, hc, hval⟩ := h.consumed_eq hsums k
    refine ⟨c, ?_, hval⟩
    rw [LiveEntry.row, Buckets.get_map, hc]
  completed := h.fullyCompleted

end LiveRow.Becomes

-- Each part is rounded by itself: three times 0.015 are 6 cents, and not 4.
example : LiveRow.consumedCents
    { LiveRow.unpaid 1 1 Sample.today Sample.hundred with
      completed := .all { coeff := 15, scale := 3 }
      waived := .all { coeff := 15, scale := 3 }
      writtenOff := .all { coeff := 15, scale := 3 } } .interest = 6 := by
  decide

theorem HistoryRow.Becomes.loadedAs {r : HistoryRow} {e : HistoryEntry} (h : r.Becomes e) :
    r.LoadedAs e.read where
  installment := h.installment
  dueDate := h.dueDate
  due k := ⟨_, Amounts.get_ofCents e.due k, Amounts.val_of_toCents h.due k⟩

/-! ## Sorted rows -/

theorem map_eq_of_forall₂ {ρ ε γ : Type} {R : ρ → ε → Prop} {f : ρ → γ} {g : ε → γ}
    {rows : List ρ} {entries : List ε} (h : List.Forall₂ R rows entries)
    (hfg : ∀ r e, R r e → g e = f r) : entries.map g = rows.map f := by
  induction h with
  | nil => rfl
  | cons hr _ ih => rw [List.map_cons, List.map_cons, hfg _ _ hr, ih]

theorem exists_row_of_mem {ρ ε : Type} {R : ρ → ε → Prop} {rows : List ρ} {entries : List ε}
    (h : List.Forall₂ R rows entries) {e : ε} (he : e ∈ entries) : ∃ r ∈ rows, R r e := by
  induction h with
  | nil => cases he
  | cons hr _ ih =>
    rcases List.mem_cons.1 he with rfl | he
    · exact ⟨_, List.mem_cons_self, hr⟩
    · obtain ⟨r, hmem, hr⟩ := ih he
      exact ⟨r, List.mem_cons_of_mem _ hmem, hr⟩

/-- Sorted entries come from sorted rows. -/
theorem exists_sorted_rows {ρ ε : Type} {R : ρ → ε → Prop} {rowDate : ρ → Date} {rowNumber : ρ → Nat}
    {entryDate : ε → Date} {entryNumber : ε → Nat} {rows : List ρ} {entries : List ε}
    (h : List.Forall₂ R rows entries) (hdate : ∀ r e, R r e → entryDate e = rowDate r)
    (hnumber : ∀ r e, R r e → entryNumber e = rowNumber r) (hnumbers : (rows.map rowNumber).Nodup)
    (hyears : ∀ r ∈ rows, (rowDate r).HasFourDigitYear) :
    ∃ sorted : List ρ, sorted.Perm rows ∧ sorted.Pairwise (DueBefore rowDate rowNumber) ∧
      List.Forall₂ R sorted (byDueText entryDate entryNumber entries) := by
  have hnodup : (entries.map entryNumber).Nodup := by
    rw [map_eq_of_forall₂ h hnumber]
    exact hnumbers
  have hdates : ∀ e ∈ entries, (entryDate e).HasFourDigitYear := by
    intro e he
    obtain ⟨r, hmem, hr⟩ := exists_row_of_mem h he
    rw [hdate r e hr]
    exact hyears r hmem
  obtain ⟨sorted, hsorted, hperm⟩ :=
    List.perm_comp_forall₂ (perm_byDueText entries) (List.Forall₂.flip h)
  have hrows : List.Forall₂ R sorted (byDueText entryDate entryNumber entries) :=
    List.Forall₂.flip hsorted
  refine ⟨sorted, hperm, ?_, hrows⟩
  -- The order is one of pairs of a date and a number, and these are the same on both sides.
  have hpairs := map_eq_of_forall₂ hrows (f := fun r => (rowDate r, rowNumber r))
    (g := fun e => (entryDate e, entryNumber e)) fun r e hr => by
      rw [hdate r e hr, hnumber r e hr]
  have hbefore : ((byDueText entryDate entryNumber entries).map fun e =>
      (entryDate e, entryNumber e)).Pairwise (DueBefore Prod.fst Prod.snd) :=
    List.pairwise_map.2 (dueBefore_byDueText hnodup hdates)
  rw [hpairs, List.pairwise_map] at hbefore
  exact hbefore

/-! ## The schedules of a loan -/

/-- No loan of the book has a schedule yet, live or earlier. -/
def Book.HasNoSchedules (b : Book) : Prop :=
  ∀ id l, b.loans.find? id = some l → l.schedule = [] ∧ l.history = []

/-- Rows that can be prepared all become entries. -/
theorem forall₂_prepared {ρ ε : Type} {prepare : ρ → Except Error ε} {rows : List ρ}
    (h : ∀ r ∈ rows, ∃ e, prepare r = .ok e) :
    List.Forall₂ (fun r e => prepare r = .ok e) rows
      (rows.filterMap fun r => (prepare r).toOption) := by
  induction rows with
  | nil => exact .nil
  | cons r rows ih =>
    obtain ⟨e, he⟩ := h r List.mem_cons_self
    rw [List.filterMap_cons_some (b := e) (by rw [he]; rfl)]
    exact .cons he (ih fun r' hr' => h r' (List.mem_cons_of_mem _ hr'))

/-- The schedules of the loan are the rows among the inserts that are for it. -/
structure Loan.HoldsRows (l : Loan) (id : LoanId) (xs : List ScheduleInsert) : Prop where
  schedule : List.Forall₂ LiveRow.Becomes (liveRowsOf id xs) l.schedule
  history : List.Forall₂ HistoryRow.Becomes (historyRowsOf id xs) l.history

theorem Loan.plannedEntries_eq_filter (l : Loan) :
    l.plannedEntries = l.history.filter fun e => l.history.all (e.version ≤ ·.version) := by
  refine List.filter_congr fun e he => ?_
  have hmem : e ∈ l.plannedEntries ↔ _ := Loan.mem_plannedEntries_iff
  rw [plannedEntries, List.mem_filter, and_iff_right he, and_iff_right he] at hmem
  rw [Bool.eq_iff_iff, hmem]
  simp

theorem Loan.HoldsRows.planned {l : Loan} {id : LoanId} {xs : List ScheduleInsert}
    (h : l.HoldsRows id xs) :
    List.Forall₂ HistoryRow.Becomes (firstRowsOf id xs) l.plannedEntries := by
  have hversions := map_eq_of_forall₂ h.history (f := (·.version)) (g := (·.version))
    fun r e hr => hr.version
  rw [Loan.plannedEntries_eq_filter]
  refine List.rel_filter (fun r e hr => ?_) h.history
  have hall := congrArg (List.all · fun v => r.version ≤ v) hversions
  simp only [List.all_map, Function.comp_def, ← hr.version] at hall ⊢
  rw [hall]

namespace Book

variable {b b' : Book} {xs : List ScheduleInsert} {id : LoanId}

theorem exists_prepare_of_insertAll (h : b.insertAll xs = .ok b') (id : LoanId) :
    (∀ r ∈ liveRowsOf id xs, ∃ e, r.prepare = .ok e) ∧
      ∀ r ∈ historyRowsOf id xs, ∃ e, r.prepare = .ok e := by
  obtain ⟨hadmits, -⟩ := exists_insertAll_iff.1 ⟨b', h⟩
  constructor
  · intro r hr
    obtain ⟨l, -, hfits⟩ := hadmits _ (mem_liveRowsOf.1 hr).1
    exact hfits.1
  · intro r hr
    obtain ⟨l, -, hfits⟩ := hadmits _ (mem_historyRowsOf.1 hr).1
    exact hfits.1

theorem holdsRows_of_insertAll (hempty : b.HasNoSchedules) (h : b.insertAll xs = .ok b') {l : Loan}
    (hl : b'.loans.find? id = some l) : l.HoldsRows id xs := by
  obtain ⟨hlive, hhistory⟩ := exists_prepare_of_insertAll h id
  rw [(inserted_of_insertAll h).loans, Option.map_eq_some_iff] at hl
  obtain ⟨l₀, hl₀, rfl⟩ := hl
  obtain ⟨hschedule₀, hhistory₀⟩ := hempty id l₀ hl₀
  constructor
  · rw [Loan.inserted, hschedule₀]
    exact (forall₂_prepared hlive).imp fun r e => LiveRow.becomes_of_prepare
  · rw [Loan.inserted, hhistory₀]
    exact (forall₂_prepared hhistory).imp fun r e => HistoryRow.becomes_of_prepare

/-- Without the loan there are no rows of it. -/
theorem rowsOf_eq_nil (h : b.insertAll xs = .ok b') (hl : b'.loans.find? id = none) :
    liveRowsOf id xs = [] ∧ historyRowsOf id xs = [] := by
  obtain ⟨hadmits, -⟩ := exists_insertAll_iff.1 ⟨b', h⟩
  rw [(inserted_of_insertAll h).loans, Option.map_eq_none_iff] at hl
  have hnone {x : ScheduleInsert} (hx : x ∈ xs) : x.loan ≠ id := by
    rintro rfl
    obtain ⟨l, hl', -⟩ := hadmits x hx
    rw [hl] at hl'
    cases hl'
  constructor
  · refine List.eq_nil_iff_forall_not_mem.2 fun r hr => ?_
    obtain ⟨hmem, hloan⟩ := mem_liveRowsOf.1 hr
    exact hnone hmem hloan
  · refine List.eq_nil_iff_forall_not_mem.2 fun r hr => ?_
    obtain ⟨hmem, hloan⟩ := mem_historyRowsOf.1 hr
    exact hnone hmem hloan

/-- The live schedule is loaded as it was inserted, in the order of due dates. -/
theorem exists_liveInstallments (hempty : b.HasNoSchedules) (h : b.insertAll xs = .ok b')
    (hrows : ∀ r ∈ liveRowsOf id xs, r.dueDate.HasFourDigitYear ∧ r.SumsFit) :
    ∃ rows loaded, b'.liveInstallments id = .ok loaded ∧ rows.Perm (liveRowsOf id xs) ∧
      rows.Pairwise (DueBefore (·.dueDate) (·.installment)) ∧
      List.Forall₂ LiveRow.LoadedAs rows loaded := by
  cases hl : b'.loans.find? id with
  | none =>
    refine ⟨[], [], ?_, ?_, .nil, .nil⟩
    · simp only [liveInstallments, hl]
    · rw [(rowsOf_eq_nil h hl).1]
  | some l =>
    have hfits : List.Forall₂ (fun (r : LiveRow) e => r.SumsFit ∧ r.Becomes e)
        (liveRowsOf id xs) l.schedule :=
      (List.forall₂_and_left _ _).2 ⟨fun r hr => (hrows r hr).2,
        (holdsRows_of_insertAll hempty h hl).schedule⟩
    obtain ⟨rows, hperm, hbefore, hsorted⟩ := exists_sorted_rows hfits
      (fun r e hr => hr.2.dueDate) (fun r e hr => hr.2.installment)
      (nodup_liveRowsOf (exists_insertAll_iff.1 ⟨b', h⟩).2 id) fun r hr => (hrows r hr).1
    have hexact : ∀ e ∈ l.schedule, ∀ i, (e.consumed.get i).isExact := by
      intro e he
      obtain ⟨r, -, hr⟩ := exists_row_of_mem hfits he
      exact hr.2.isExact_consumed hr.1
    refine ⟨rows, l.liveRows, liveInstallments_eq_ok hl hexact, hperm, hbefore, ?_⟩
    rw [Loan.liveRows, List.forall₂_map_right_iff]
    exact hsorted.imp fun r e hr => hr.2.loadedAs hr.1

/-- The planned schedule is the one of the smallest version, in the order of due dates. -/
theorem exists_plannedInstallments (hempty : b.HasNoSchedules) (h : b.insertAll xs = .ok b')
    (hyears : ∀ r ∈ historyRowsOf id xs, r.dueDate.HasFourDigitYear) :
    ∃ rows : List HistoryRow, rows.Perm (firstRowsOf id xs) ∧
      rows.Pairwise (DueBefore (·.dueDate) (·.installment)) ∧
      List.Forall₂ HistoryRow.LoadedAs rows (b'.plannedInstallments id) := by
  cases hl : b'.loans.find? id with
  | none =>
    refine ⟨[], ?_, .nil, ?_⟩
    · rw [firstRowsOf, (rowsOf_eq_nil h hl).2]
      rfl
    · simp only [plannedInstallments, hl]
      exact .nil
  | some l =>
    obtain ⟨rows, hperm, hbefore, hsorted⟩ := exists_sorted_rows
      (holdsRows_of_insertAll hempty h hl).planned (fun r e hr => hr.dueDate)
      (fun r e hr => hr.installment)
      (nodup_firstRowsOf (exists_insertAll_iff.1 ⟨b', h⟩).2 id)
      fun r hr => hyears r (mem_firstRowsOf.1 hr).1
    refine ⟨rows, hperm, hbefore, ?_⟩
    rw [plannedInstallments_eq hl, Loan.plannedRows, List.forall₂_map_right_iff]
    exact hsorted.imp fun r e hr => hr.loadedAs

end Book

/-! ## Any order of the inserts -/

section Permuted

variable {b b' b'' : Book} {xs ys : List ScheduleInsert} {id : LoanId}

theorem Loan.schedule_inserted_perm (hperm : xs.Perm ys) (l : Loan) (id : LoanId) :
    (l.inserted id xs).schedule.Perm (l.inserted id ys).schedule :=
  ((hperm.filterMap _).filterMap _).append_left _

theorem Loan.history_inserted_perm (hperm : xs.Perm ys) (l : Loan) (id : LoanId) :
    (l.inserted id xs).history.Perm (l.inserted id ys).history :=
  ((hperm.filterMap _).filterMap _).append_left _

theorem Loan.plannedEntries_perm {l l' : Loan} (h : l.history.Perm l'.history) :
    l.plannedEntries.Perm l'.plannedEntries := by
  rw [plannedEntries_eq_filter, plannedEntries_eq_filter]
  have hfirst : (fun e : HistoryEntry => l.history.all (e.version ≤ ·.version)) =
      fun e => l'.history.all (e.version ≤ ·.version) :=
    funext fun e => h.all_eq
  rw [hfirst]
  exact h.filter _

namespace Book

theorem terms_eq_of_perm (hperm : xs.Perm ys) (h : b.Inserted xs b') (h' : b.Inserted ys b'')
    (id : LoanId) : b''.terms id = b'.terms id := by
  unfold terms loanWithProduct?
  rw [h.loans, h'.loans, h.products, h'.products]
  cases b.loans.find? id with
  | none => rfl
  | some l =>
    have hhistory : (l.inserted id ys).history.isEmpty = (l.inserted id xs).history.isEmpty :=
      (Loan.history_inserted_perm hperm l id).symm.isEmpty_eq
    have hpair (zs : List ScheduleInsert) :
        (do
          let loan ← some (l.inserted id zs)
          let product ← b.products.find? loan.product
          return (loan, product) : Option (Loan × Product)) =
        (b.products.find? l.product).map (l.inserted id zs, ·) := by
      show (b.products.find? l.product >>= fun p => pure (l.inserted id zs, p)) = _
      cases b.products.find? l.product <;> rfl
    rw [Option.map_some, Option.map_some, hpair, hpair]
    cases b.products.find? l.product with
    | none => rfl
    | some p =>
      simp only [Option.map_some, hhistory]
      rfl

/-- What is computed for a loan does not depend on the order of the inserts. -/
theorem writeOf_eq_of_perm (hempty : b.HasNoSchedules) (hperm : xs.Perm ys)
    (h : b.insertAll xs = .ok b') (h' : b.insertAll ys = .ok b'') (id : LoanId) (today : Date)
    (mode : AgingMode) : b''.writeOf id today mode = b'.writeOf id today mode := by
  have hxs := inserted_of_insertAll h
  have hys := inserted_of_insertAll h'
  have hterms := terms_eq_of_perm hperm hxs hys id
  cases hl : b.loans.find? id with
  | none =>
    refine SameLoan.writeOf_eq ⟨by rw [hys.loans, hxs.loans, hl]; rfl, fun l hl' => ?_⟩ today mode
    rw [hxs.loans, hl] at hl'
    cases hl'
  | some l =>
    have hl' : b'.loans.find? id = some (l.inserted id xs) := by
      rw [hxs.loans, hl, Option.map_some]
    have hl'' : b''.loans.find? id = some (l.inserted id ys) := by
      rw [hys.loans, hl, Option.map_some]
    obtain ⟨-, hpairs⟩ := exists_insertAll_iff.1 ⟨b', h⟩
    have hrows := holdsRows_of_insertAll hempty h hl'
    have hlive : ((l.inserted id xs).schedule.map (·.installment)).Nodup := by
      rw [map_eq_of_forall₂ hrows.schedule fun r e hr => hr.installment]
      exact nodup_liveRowsOf hpairs id
    have hplanned : ((l.inserted id xs).plannedEntries.map (·.installment)).Nodup := by
      rw [map_eq_of_forall₂ hrows.planned fun r e hr => hr.installment]
      exact nodup_firstRowsOf hpairs id
    refine writeOf_congr hterms ?_ ?_ ?_ today mode
    · simp only [plannedInstallments, hl', hl'']
      rw [byDueText_eq (Loan.plannedEntries_perm (Loan.history_inserted_perm hperm l id)) hplanned]
    · simp only [liveInstallments, hl', hl'']
      rw [byDueText_eq (Loan.schedule_inserted_perm hperm l id) hlive]
    · simp only [consumption, hl', hl'']
      rfl

end Book

end Permuted

/-! ## Loading from a store -/

/-- After inserts that were accepted, the live schedule of a loan is loaded as its live rows and the
planned schedule as its rows of the smallest version, each row once, in the order of due dates and
numbers, with amounts in cents. Inserted in any other order, they are accepted as well, and what is
computed for a loan is the same. -/
theorem inserted_schedules_are_loaded {s s' : Store} {b : Book} (hbook : s.HasBook b)
    (hempty : b.HasNoSchedules) {xs : List ScheduleInsert}
    (hxs : (xs.forM (·.write.act) : Act Store Unit).exec s = (.ok (), s')) :
    (∀ id, (∀ r ∈ liveRowsOf id xs, r.dueDate.HasFourDigitYear ∧ r.SumsFit) →
      ∃ rows loaded,
        (BookAccess.liveInstallments id : Act Store (List LiveInstallment)).exec s' =
          (.ok loaded, s') ∧
        rows.Perm (liveRowsOf id xs) ∧ rows.Pairwise (DueBefore (·.dueDate) (·.installment)) ∧
        List.Forall₂ LiveRow.LoadedAs rows loaded) ∧
    (∀ id, (∀ r ∈ historyRowsOf id xs, r.dueDate.HasFourDigitYear) →
      ∃ rows loaded,
        (BookAccess.plannedInstallments id : Act Store (List PlannedInstallment)).exec s' =
          (.ok loaded, s') ∧
        rows.Perm (firstRowsOf id xs) ∧ rows.Pairwise (DueBefore (·.dueDate) (·.installment)) ∧
        List.Forall₂ HistoryRow.LoadedAs rows loaded) ∧
    ∀ ys, xs.Perm ys → ∃ s'', (ys.forM (·.write.act) : Act Store Unit).exec s = (.ok (), s'') ∧
      ∀ id today mode,
        ((computeWrite id today mode : Act Store ArrearsWrite).exec s'').1 =
          ((computeWrite id today mode : Act Store ArrearsWrite).exec s').1 := by
  obtain ⟨t, ht⟩ := hbook
  rcases s with ⟨tables, tx⟩
  cases ht
  obtain ⟨b', h, rfl⟩ := Store.exec_inserts_eq_ok_iff.1 hxs
  have hbook' : Store.HasBook ⟨some ⟨b', t⟩, tx⟩ b' := ⟨t, rfl⟩
  refine ⟨fun id hrows => ?_, fun id hyears => ?_, fun ys hperm => ?_⟩
  · obtain ⟨rows, loaded, hloaded, hperm, hbefore, has⟩ := b.exists_liveInstallments hempty h hrows
    refine ⟨rows, loaded, ?_, hperm, hbefore, has⟩
    have hreads := hbook'.reads_liveInstallments id
    rw [hloaded] at hreads
    exact hreads
  · obtain ⟨rows, hperm, hbefore, has⟩ := b.exists_plannedInstallments hempty h hyears
    exact ⟨rows, _, hbook'.reads_plannedInstallments id, hperm, hbefore, has⟩
  · obtain ⟨b'', h'⟩ := Book.exists_insertAll_of_perm hperm h
    refine ⟨⟨some ⟨b'', t⟩, tx⟩, Store.exec_inserts_eq_ok_iff.2 ⟨b'', h', rfl⟩, ?_⟩
    intro id today mode
    have hbook'' : Store.HasBook ⟨some ⟨b'', t⟩, tx⟩ b'' := ⟨t, rfl⟩
    rw [hbook''.computeWrite_eq, hbook'.computeWrite_eq]
    exact Book.writeOf_eq_of_perm hempty hperm h h' id today mode

namespace Sample

/-- Loan 1 ages off its live schedule and loan 2 replays its planned one. Neither has one yet. -/
def lentBook : Book :=
  Book.empty.after [.insertProduct ⟨1, "live", false, 0⟩, .insertProduct ⟨2, "planned", true, 0⟩,
    .insertLoan ⟨1, 1, .active, none, .zero⟩, .insertLoan ⟨2, 2, .active, none, .zero⟩]

def lentStore : Store :=
  ⟨some ⟨lentBook, .empty⟩, false⟩

/-- Principal of 0.005 and interest of 0.015, both half a cent off. -/
def halfCents : Amounts :=
  { Amounts.zero with
    principal := { coeff := 5, scale := 3 }, interest := { coeff := 15, scale := 3 } }

/-- Later installments are inserted before earlier ones, and the second version before the first. -/
def scheduleInserts : List ScheduleInsert :=
  [.live ⟨1, 2, today, hundred, halfCents, halfCents, halfCents, false⟩,
    .history ⟨2, 2, 1, dueDate, hundred⟩,
    .live ⟨1, 1, dueDate, hundred, Amounts.zero, halfCents, Amounts.zero, false⟩,
    .history ⟨2, 1, 2, today, hundred⟩, .history ⟨2, 1, 1, dueDate, halfCents⟩]

end Sample

theorem inserted_schedules_are_loaded_of_sample :
    Sample.lentStore.HasBook Sample.lentBook ∧ Sample.lentBook.HasNoSchedules ∧
    ∃ s', (Sample.scheduleInserts.forM (·.write.act) : Act Store Unit).exec Sample.lentStore =
        (.ok (), s') ∧
      (∃ rows loaded,
        (BookAccess.liveInstallments 1 : Act Store (List LiveInstallment)).exec s' =
          (.ok loaded, s') ∧
        rows.Perm (liveRowsOf 1 Sample.scheduleInserts) ∧
        rows.Pairwise (DueBefore (·.dueDate) (·.installment)) ∧
        List.Forall₂ LiveRow.LoadedAs rows loaded) ∧
      (∃ rows loaded,
        (BookAccess.plannedInstallments 2 : Act Store (List PlannedInstallment)).exec s' =
          (.ok loaded, s') ∧
        rows.Perm (firstRowsOf 2 Sample.scheduleInserts) ∧
        rows.Pairwise (DueBefore (·.dueDate) (·.installment)) ∧
        List.Forall₂ HistoryRow.LoadedAs rows loaded) ∧
      ∃ s'', (Sample.scheduleInserts.reverse.forM (·.write.act) : Act Store Unit).exec
          Sample.lentStore = (.ok (), s'') ∧
        ∀ id today mode,
          ((computeWrite id today mode : Act Store ArrearsWrite).exec s'').1 =
            ((computeWrite id today mode : Act Store ArrearsWrite).exec s').1 := by
  have hbook : Sample.lentStore.HasBook Sample.lentBook := ⟨.empty, rfl⟩
  have hempty : Sample.lentBook.HasNoSchedules := by
    intro id l hl
    have hrows : ∀ row ∈ Sample.lentBook.loans.rows,
        row.2.schedule = [] ∧ row.2.history = [] := by decide
    exact hrows (id, l) (Table.find?_eq_some_iff.1 hl)
  have hxs : (Sample.scheduleInserts.forM (·.write.act) : Act Store Unit).exec Sample.lentStore =
      (.ok (), _) := rfl
  have hyears : ∀ d, d = Sample.dueDate ∨ d = Sample.today → d.HasFourDigitYear := by
    rintro d (rfl | rfl) <;> exact Date.hasFourDigitYear_iff.2 (by decide)
  obtain ⟨hlive, hplanned, hany⟩ := inserted_schedules_are_loaded hbook hempty hxs
  refine ⟨hbook, hempty, _, hxs, hlive 1 ?_, hplanned 2 ?_,
    hany _ (List.reverse_perm _).symm⟩
  · have hrows : ∀ r ∈ liveRowsOf 1 Sample.scheduleInserts,
        (r.dueDate = Sample.dueDate ∨ r.dueDate = Sample.today) ∧ r.SumsFit := by decide
    exact fun r hr => ⟨hyears _ (hrows r hr).1, (hrows r hr).2⟩
  · have hrows : ∀ r ∈ historyRowsOf 2 Sample.scheduleInserts,
        r.dueDate = Sample.dueDate ∨ r.dueDate = Sample.today := by decide
    exact fun r hr => hyears _ (hrows r hr)

end LoanArrears
