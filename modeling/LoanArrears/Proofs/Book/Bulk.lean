-- SUMMARY: The bulk insert loan by loan: it succeeds when the entry of every loan can be made, and then adds exactly these entries.
import LoanArrears.Book.Arrears
import LoanArrears.Proofs.Act
import LoanArrears.Proofs.Book.Table
import Mathlib.Tactic.ByContra

/-!
# The bulk insert

`Book.bulkEntryOf` is the part that the bulk insert has in one loan: its entry if it is aged in
bulk and in arrears, or the error that ends the whole insert. When no loan has an error, the
insert succeeds unless the table has a row of a loan with an entry, and it adds the entries of
all loans.
-/

namespace LoanArrears

namespace Book

/-- The entry of a loan in the bulk insert, checked. -/
def bulkEntryOf (b : Book) (today : Date) (l : Loan) : Except Error (Option ArrearsEntry) :=
  match b.products.find? l.product with
  | some p =>
    if l.isAgedInBulk p then do
      match ← l.bulkEntry? (today.cutoffText? (l.graceOf p)) with
      | some e =>
        e.check
        return some e
      | none => return none
    else .ok none
  | none => .ok none

variable {b : Book} {today : Date}

/-- A loan with an entry gets it, unless the table has a row of the loan. -/
theorem bulkStep_eq (n : Nat) (t : ArrearsTable) (id : LoanId) (l : Loan) :
    b.bulkStep today (n, t) (id, l) =
      match b.bulkEntryOf today l with
      | .ok (some e) =>
        if t.contains id then .error (.notUnique "loan_arrears_aging" ["loan_id"])
        else .ok (n + 1, t.put id e)
      | .ok none => .ok (n, t)
      | .error e => .error e := by
  unfold bulkStep bulkEntryOf
  dsimp only
  cases hp : b.products.find? l.product with
  | none => rfl
  | some p =>
    by_cases haged : l.isAgedInBulk p
    · simp only [haged, if_true]
      cases l.bulkEntry? (today.cutoffText? (l.graceOf p)) with
      | error e => rfl
      | ok entry =>
        cases entry with
        | none => rfl
        | some e =>
          simp only [bind, Except.bind]
          cases e.check <;> rfl
    · simp only [haged]
      rfl

/-- A loan has no entry, or the table has no row of it yet. -/
def IsFree (t : ArrearsTable) (id : LoanId) (e : Option ArrearsEntry) : Prop :=
  e = none ∨ t.find? id = none

/-- A loan that is free gets its entry. -/
theorem exists_bulkStep {id : LoanId} {l : Loan} {e : Option ArrearsEntry} {t : ArrearsTable}
    (he : b.bulkEntryOf today l = .ok e) (hfree : IsFree t id e) (n : Nat) :
    ∃ n' t', b.bulkStep today (n, t) (id, l) = .ok (n', t') ∧
      t'.find? id = e.or (t.find? id) ∧ ∀ k, k ≠ id → t'.find? k = t.find? k := by
  rw [bulkStep_eq, he]
  cases e with
  | none => exact ⟨n, t, rfl, rfl, fun k _ => rfl⟩
  | some e =>
    have hnew : t.find? id = none := hfree.resolve_left (Option.some_ne_none e)
    have hcontains : t.contains id = false := Table.contains_eq_false_iff.2 hnew
    refine ⟨n + 1, t.put id e, by simp [hcontains], ?_, fun k hk => ?_⟩
    · rw [Table.find?_put, if_pos rfl]
      rfl
    · rw [Table.find?_put, if_neg hk]

/-- Loans that are free are added as far as they have entries. -/
theorem foldlM_bulkStep {rows : List (LoanId × Loan)}
    (hrows : rows.Pairwise fun r r' => r.1 < r'.1) (n : Nat) (t : ArrearsTable)
    (hok : ∀ r ∈ rows, ∃ e, b.bulkEntryOf today r.2 = .ok e ∧ IsFree t r.1 e) :
    ∃ n' t', rows.foldlM (b.bulkStep today) (n, t) = .ok (n', t') ∧
      ∀ id, (∀ l, (id, l) ∈ rows →
          ∃ e, b.bulkEntryOf today l = .ok e ∧ t'.find? id = e.or (t.find? id)) ∧
        ((∀ l, (id, l) ∉ rows) → t'.find? id = t.find? id) := by
  induction rows generalizing n t with
  | nil => exact ⟨n, t, rfl, fun id => ⟨fun l hl => (List.not_mem_nil hl).elim, fun _ => rfl⟩⟩
  | cons r rest ih =>
    obtain ⟨hr, hrest⟩ := List.pairwise_cons.1 hrows
    obtain ⟨e, he, hfree⟩ := hok r List.mem_cons_self
    obtain ⟨n₁, t₁, hstep, hrow, hothers⟩ := exists_bulkStep he hfree n
    have hkept : ∀ r' ∈ rest, t₁.find? r'.1 = t.find? r'.1 :=
      fun r' hr' => hothers r'.1 (Int.ne_of_gt (hr r' hr'))
    have hok' : ∀ r' ∈ rest, ∃ e, b.bulkEntryOf today r'.2 = .ok e ∧ IsFree t₁ r'.1 e := by
      intro r' hr'
      obtain ⟨e', he', hfree'⟩ := hok r' (List.mem_cons_of_mem _ hr')
      exact ⟨e', he', hfree'.imp_right (hkept r' hr').trans⟩
    obtain ⟨n', t', hfold, hids⟩ := ih hrest n₁ t₁ hok'
    refine ⟨n', t', ?_, fun id => ⟨fun l hl => ?_, fun hl => ?_⟩⟩
    · rw [List.foldlM_cons, hstep]
      exact hfold
    · rcases List.mem_cons.1 hl with heq | hl
      · subst heq
        -- Ids ascend, so no later loan touches the row of this one.
        have hout : ∀ l', (id, l') ∉ rest := fun l' hl' =>
          Int.lt_irrefl _ (hr (id, l') hl')
        exact ⟨e, he, ((hids id).2 hout).trans hrow⟩
      · obtain ⟨e', he', hfind⟩ := (hids id).1 l hl
        exact ⟨e', he', hkept _ hl ▸ hfind⟩
    · have hne : id ≠ r.1 := by
        intro heq
        exact hl r.2 (heq ▸ List.mem_cons_self)
      rw [(hids id).2 fun l hl' => hl l (List.mem_cons_of_mem _ hl'), hothers id hne]

/-- A row of a loan that has an entry ends the whole insert. -/
theorem foldlM_bulkStep_eq_notUnique {rows : List (LoanId × Loan)}
    (hrows : rows.Pairwise fun r r' => r.1 < r'.1) (n : Nat) (t : ArrearsTable)
    (hok : ∀ r ∈ rows, ∃ e, b.bulkEntryOf today r.2 = .ok e)
    (htaken : ∃ r ∈ rows, ∃ e, b.bulkEntryOf today r.2 = .ok e ∧ ¬ IsFree t r.1 e) :
    rows.foldlM (b.bulkStep today) (n, t) =
      .error (.notUnique "loan_arrears_aging" ["loan_id"]) := by
  induction rows generalizing n t with
  | nil => simp at htaken
  | cons r rest ih =>
    obtain ⟨hr, hrest⟩ := List.pairwise_cons.1 hrows
    obtain ⟨e, he⟩ := hok r List.mem_cons_self
    rw [List.foldlM_cons]
    by_cases hfree : IsFree t r.1 e
    · obtain ⟨n₁, t₁, hstep, -, hothers⟩ := exists_bulkStep he hfree n
      rw [hstep]
      refine ih hrest n₁ t₁ (fun r' hr' => hok r' (List.mem_cons_of_mem _ hr')) ?_
      obtain ⟨r', hr', e', he', htaken⟩ := htaken
      rcases List.mem_cons.1 hr' with rfl | hr'
      · rw [he] at he'
        cases he'
        exact absurd hfree htaken
      · refine ⟨r', hr', e', he', ?_⟩
        rw [IsFree, hothers r'.1 (Int.ne_of_gt (hr r' hr'))]
        exact htaken
    · rw [IsFree, not_or] at hfree
      obtain ⟨entry, rfl⟩ := Option.ne_none_iff_exists'.1 hfree.1
      have hcontains : t.contains r.1 = true := Option.isSome_iff_ne_none.2 hfree.2
      rw [bulkStep_eq, he]
      simp only [hcontains, if_true]
      rfl

/-- A loan whose entry cannot be made ends the whole insert. -/
theorem foldlM_bulkStep_eq_error {rows : List (LoanId × Loan)}
    (hrows : rows.Pairwise fun r r' => r.1 < r'.1) (n : Nat) (t : ArrearsTable)
    (hnew : ∀ r ∈ rows, t.find? r.1 = none)
    (herror : ∃ r ∈ rows, ∃ e, b.bulkEntryOf today r.2 = .error e) :
    ∃ e, rows.foldlM (b.bulkStep today) (n, t) = .error e := by
  induction rows generalizing n t with
  | nil => simp at herror
  | cons r rest ih =>
    obtain ⟨hr, hrest⟩ := List.pairwise_cons.1 hrows
    rw [List.foldlM_cons]
    cases hentry : b.bulkEntryOf today r.2 with
    | error e =>
      rw [bulkStep_eq, hentry]
      exact ⟨e, rfl⟩
    | ok entry =>
      have herror' : ∃ r ∈ rest, ∃ e, b.bulkEntryOf today r.2 = .error e := by
        obtain ⟨r', hr', e, he⟩ := herror
        rcases List.mem_cons.1 hr' with rfl | hr'
        · rw [hentry] at he
          cases he
        · exact ⟨r', hr', e, he⟩
      obtain ⟨n₁, t₁, hstep, -, hothers⟩ :=
        exists_bulkStep hentry (.inr (hnew r List.mem_cons_self)) n
      rw [hstep]
      refine ih hrest n₁ t₁ (fun r' hr' => ?_) herror'
      rw [hothers r'.1 (Int.ne_of_gt (hr r' hr'))]
      exact hnew r' (List.mem_cons_of_mem _ hr')

/-- The bulk insert makes the entries of all loans. -/
def BulkAccepts (b : Book) (today : Date) : Prop :=
  ∀ id l, b.loans.find? id = some l → ∃ e, b.bulkEntryOf today l = .ok e

/-- What the bulk insert leaves under a loan, into an empty table. -/
def bulkRow? (b : Book) (today : Date) (id : LoanId) : Option ArrearsEntry :=
  (b.loans.find? id).bind fun l =>
    match b.bulkEntryOf today l with
    | .ok e => e
    | .error _ => none

theorem bulkRow?_of_bulkEntryOf {id : LoanId} {l : Loan} {e : Option ArrearsEntry}
    (hl : b.loans.find? id = some l) (he : b.bulkEntryOf today l = .ok e) :
    b.bulkRow? today id = e := by
  simp only [bulkRow?, hl, Option.bind, he]

/-- The bulk insert adds its rows to those of other loans. -/
theorem exists_bulkInsert_of_isFree (h : b.BulkAccepts today) {t : ArrearsTable}
    (hfree : ∀ id, IsFree t id (b.bulkRow? today id)) :
    ∃ n t', b.bulkInsert today t = .ok (n, t') ∧
      ∀ id, t'.find? id = (b.bulkRow? today id).or (t.find? id) := by
  have hrow (r : LoanId × Loan) (hr : r ∈ b.loans.rows) :
      b.loans.find? r.1 = some r.2 := Table.find?_eq_some_iff.2 hr
  have hok : ∀ r ∈ b.loans.rows, ∃ e, b.bulkEntryOf today r.2 = .ok e ∧ IsFree t r.1 e := by
    intro r hr
    obtain ⟨e, he⟩ := h r.1 r.2 (hrow r hr)
    exact ⟨e, he, bulkRow?_of_bulkEntryOf (hrow r hr) he ▸ hfree r.1⟩
  obtain ⟨n, t', hfold, hids⟩ := foldlM_bulkStep b.loans.ascending 0 t hok
  refine ⟨n, t', hfold, fun id => ?_⟩
  cases hl : b.loans.find? id with
  | none =>
    have hout : ∀ l, (id, l) ∉ b.loans.rows := by
      intro l hmem
      rw [hrow (id, l) hmem] at hl
      cases hl
    rw [(hids id).2 hout, bulkRow?, hl]
    rfl
  | some l =>
    obtain ⟨e, he, hfind⟩ := (hids id).1 l (Table.find?_eq_some_iff.1 hl)
    rw [hfind, bulkRow?_of_bulkEntryOf hl he]

theorem exists_bulkInsert (h : b.BulkAccepts today) :
    ∃ n t, b.bulkInsert today Table.empty = .ok (n, t) ∧
      ∀ id, t.find? id = b.bulkRow? today id := by
  obtain ⟨n, t, hinsert, hrows⟩ :=
    exists_bulkInsert_of_isFree (t := Table.empty) h fun id => .inr rfl
  exact ⟨n, t, hinsert, fun id => (hrows id).trans Option.or_none⟩

theorem size_of_foldlM_bulkStep {rows : List (LoanId × Loan)} {n n' : Nat} {t t' : ArrearsTable}
    (h : rows.foldlM (b.bulkStep today) (n, t) = .ok (n', t')) : t'.size + n = t.size + n' := by
  induction rows generalizing n t with
  | nil =>
    cases h
    rfl
  | cons r rest ih =>
    rw [List.foldlM_cons] at h
    obtain ⟨⟨n₁, t₁⟩, hstep, hrest⟩ := exists_of_bind_eq_ok h
    rw [bulkStep_eq] at hstep
    have htail := ih hrest
    split at hstep
    · split at hstep
      · cases hstep
      · next hnew =>
        cases hstep
        have hfree := Table.contains_eq_false_iff.1 (Bool.eq_false_iff.2 hnew)
        rw [Table.size_put hfree] at htail
        omega
    · cases hstep
      exact htail
    · cases hstep

/-- The bulk insert counts the rows that it adds. -/
theorem size_of_bulkInsert {n : Nat} {t t' : ArrearsTable}
    (h : b.bulkInsert today t = .ok (n, t')) : t'.size = t.size + n :=
  size_of_foldlM_bulkStep h

/-- The bulk insert cannot add a row of a loan that has one. -/
theorem bulkInsert_eq_notUnique (h : b.BulkAccepts today) {t : ArrearsTable} {id : LoanId}
    (htaken : ¬ IsFree t id (b.bulkRow? today id)) :
    b.bulkInsert today t = .error (.notUnique "loan_arrears_aging" ["loan_id"]) := by
  have hrow (r : LoanId × Loan) (hr : r ∈ b.loans.rows) :
      b.loans.find? r.1 = some r.2 := Table.find?_eq_some_iff.2 hr
  refine foldlM_bulkStep_eq_notUnique b.loans.ascending 0 t
    (fun r hr => h r.1 r.2 (hrow r hr)) ?_
  cases hl : b.loans.find? id with
  | none =>
    refine absurd (.inl ?_) htaken
    rw [bulkRow?, hl]
    rfl
  | some l =>
    obtain ⟨e, he⟩ := h id l hl
    rw [bulkRow?_of_bulkEntryOf hl he] at htaken
    exact ⟨(id, l), Table.find?_eq_some_iff.1 hl, e, he, htaken⟩

theorem exists_bulkInsert_eq_error (h : ¬ b.BulkAccepts today) :
    ∃ e, b.bulkInsert today Table.empty = .error e := by
  refine foldlM_bulkStep_eq_error b.loans.ascending 0 Table.empty (fun _ _ => rfl) ?_
  by_contra hnone
  refine h fun id l hl => ?_
  cases hentry : b.bulkEntryOf today l with
  | ok e => exact ⟨e, rfl⟩
  | error e => exact absurd ⟨(id, l), Table.find?_eq_some_iff.1 hl, e, hentry⟩ hnone

/-- A bulk insert that succeeds made the entries of all loans. -/
theorem bulkAccepts_of_bulkInsert {n : Nat} {t : ArrearsTable}
    (h : b.bulkInsert today Table.empty = .ok (n, t)) : b.BulkAccepts today := by
  by_contra hrefused
  obtain ⟨e, herror⟩ := exists_bulkInsert_eq_error hrefused
  rw [h] at herror
  cases herror

theorem find?_of_bulkInsert {n : Nat} {t : ArrearsTable}
    (h : b.bulkInsert today Table.empty = .ok (n, t)) (id : LoanId) :
    t.find? id = b.bulkRow? today id := by
  obtain ⟨n', t', hinsert, hrows⟩ := exists_bulkInsert (bulkAccepts_of_bulkInsert h)
  rw [h] at hinsert
  cases hinsert
  exact hrows id

end Book

end LoanArrears
