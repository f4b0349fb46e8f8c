-- SUMMARY: Inserting installments into a loan book, live and earlier ones: when a sequence of inserts is accepted, and what the book holds then.
import LoanArrears.Proofs.Book.Writes

/-!
# Inserting installments

An insert is accepted if its amounts fit and its loan is there, without an installment under the
same number (`Book.Admits`). A sequence of inserts is accepted if each of them is admitted by the
book at first and no two of them clash. Neither depends on their order, nor does what each loan
gets by them, but for the order of its installments (`Book.Inserted`).
-/

namespace LoanArrears

/-! ## Inserts -/

/-- An installment that is inserted into the book. -/
inductive ScheduleInsert where
  | live (r : LiveRow)
  | history (r : HistoryRow)

namespace ScheduleInsert

def write : ScheduleInsert → LoanWrite
  | .live r => .insertSchedule r
  | .history r => .insertHistory r

def loan : ScheduleInsert → LoanId
  | .live r => r.loan
  | .history r => r.loan

/-- The row, if it is a live one of the loan. -/
def live? (id : LoanId) : ScheduleInsert → Option LiveRow
  | .live r => if r.loan = id then some r else none
  | .history _ => none

/-- The row, if it is an earlier one of the loan. -/
def history? (id : LoanId) : ScheduleInsert → Option HistoryRow
  | .live _ => none
  | .history r => if r.loan = id then some r else none

/-- The amounts fit, and the loan has nothing under the number of the installment. -/
def Fits (l : Loan) : ScheduleInsert → Prop
  | .live r => (∃ e, r.prepare = .ok e) ∧ ∀ e ∈ l.schedule, e.installment ≠ r.installment
  | .history r => (∃ e, r.prepare = .ok e) ∧
    ∀ e ∈ l.history, ¬(e.version = r.version ∧ e.installment = r.installment)

/-- Both are inserted under the same number of the same schedule. -/
def Clashes : ScheduleInsert → ScheduleInsert → Prop
  | .live r, .live r' => r.loan = r'.loan ∧ r.installment = r'.installment
  | .history r, .history r' =>
    r.loan = r'.loan ∧ r.version = r'.version ∧ r.installment = r'.installment
  | _, _ => False

theorem Clashes.symm {x y : ScheduleInsert} (h : x.Clashes y) : y.Clashes x := by
  cases x <;> cases y
  · exact ⟨h.1.symm, h.2.symm⟩
  · exact h
  · exact h
  · exact ⟨h.1.symm, h.2.1.symm, h.2.2.symm⟩

theorem Clashes.loan_eq {x y : ScheduleInsert} (h : x.Clashes y) : x.loan = y.loan := by
  cases x <;> cases y
  · exact h.1
  · exact h.elim
  · exact h.elim
  · exact h.1

end ScheduleInsert

/-! ## Rows of a loan -/

/-- The live rows of a loan among the inserts, in their order. -/
def liveRowsOf (id : LoanId) (xs : List ScheduleInsert) : List LiveRow :=
  xs.filterMap (·.live? id)

/-- The earlier rows of a loan among the inserts, in their order. -/
def historyRowsOf (id : LoanId) (xs : List ScheduleInsert) : List HistoryRow :=
  xs.filterMap (·.history? id)

theorem ScheduleInsert.live?_eq_some_iff {x : ScheduleInsert} {id : LoanId} {r : LiveRow} :
    x.live? id = some r ↔ x = .live r ∧ r.loan = id := by
  cases x with
  | live r' =>
    simp only [live?, Option.ite_none_right_eq_some, Option.some.injEq, live.injEq]
    constructor
    · rintro ⟨hloan, rfl⟩
      exact ⟨rfl, hloan⟩
    · rintro ⟨rfl, hloan⟩
      exact ⟨hloan, rfl⟩
  | history r' => simp [live?]

theorem ScheduleInsert.history?_eq_some_iff {x : ScheduleInsert} {id : LoanId} {r : HistoryRow} :
    x.history? id = some r ↔ x = .history r ∧ r.loan = id := by
  cases x with
  | live r' => simp [history?]
  | history r' =>
    simp only [history?, Option.ite_none_right_eq_some, Option.some.injEq, history.injEq]
    constructor
    · rintro ⟨hloan, rfl⟩
      exact ⟨rfl, hloan⟩
    · rintro ⟨rfl, hloan⟩
      exact ⟨hloan, rfl⟩

theorem mem_liveRowsOf {id : LoanId} {xs : List ScheduleInsert} {r : LiveRow} :
    r ∈ liveRowsOf id xs ↔ .live r ∈ xs ∧ r.loan = id := by
  simp [liveRowsOf, ScheduleInsert.live?_eq_some_iff]

theorem mem_historyRowsOf {id : LoanId} {xs : List ScheduleInsert} {r : HistoryRow} :
    r ∈ historyRowsOf id xs ↔ .history r ∈ xs ∧ r.loan = id := by
  simp [historyRowsOf, ScheduleInsert.history?_eq_some_iff]

/-- Without clashes the live installments of a loan have numbers of their own. -/
theorem nodup_liveRowsOf {xs : List ScheduleInsert} (h : xs.Pairwise fun x y => ¬x.Clashes y)
    (id : LoanId) : ((liveRowsOf id xs).map (·.installment)).Nodup := by
  refine List.pairwise_map.2 (List.pairwise_filterMap.2 (h.imp fun {x y} hxy => ?_))
  intro r hr r' hr' hnumber
  obtain ⟨rfl, hloan⟩ := ScheduleInsert.live?_eq_some_iff.1 hr
  obtain ⟨rfl, hloan'⟩ := ScheduleInsert.live?_eq_some_iff.1 hr'
  exact hxy ⟨hloan.trans hloan'.symm, hnumber⟩

/-- Without clashes so have the installments of each earlier schedule. -/
theorem distinct_historyRowsOf {xs : List ScheduleInsert}
    (h : xs.Pairwise fun x y => ¬x.Clashes y) (id : LoanId) :
    (historyRowsOf id xs).Pairwise fun r r' =>
      ¬(r.version = r'.version ∧ r.installment = r'.installment) := by
  refine List.pairwise_filterMap.2 (h.imp fun {x y} hxy => ?_)
  intro r hr r' hr' hnumbers
  obtain ⟨rfl, hloan⟩ := ScheduleInsert.history?_eq_some_iff.1 hr
  obtain ⟨rfl, hloan'⟩ := ScheduleInsert.history?_eq_some_iff.1 hr'
  exact hxy ⟨hloan.trans hloan'.symm, hnumbers⟩

/-- The rows of the smallest version. -/
def firstRowsOf (id : LoanId) (xs : List ScheduleInsert) : List HistoryRow :=
  (historyRowsOf id xs).filter fun r => (historyRowsOf id xs).all (r.version ≤ ·.version)

theorem mem_firstRowsOf {id : LoanId} {xs : List ScheduleInsert} {r : HistoryRow} :
    r ∈ firstRowsOf id xs ↔
      r ∈ historyRowsOf id xs ∧ ∀ r' ∈ historyRowsOf id xs, r.version ≤ r'.version := by
  simp [firstRowsOf]

theorem nodup_firstRowsOf {xs : List ScheduleInsert} (h : xs.Pairwise fun x y => ¬x.Clashes y)
    (id : LoanId) : ((firstRowsOf id xs).map (·.installment)).Nodup := by
  have hdistinct := (distinct_historyRowsOf h id).filter fun r =>
    (historyRowsOf id xs).all (r.version ≤ ·.version)
  refine List.pairwise_map.2 (List.Pairwise.imp_of_mem (fun hr hr' hne hnumber => ?_) hdistinct)
  obtain ⟨hmem, hfirst⟩ := mem_firstRowsOf.1 hr
  obtain ⟨hmem', hfirst'⟩ := mem_firstRowsOf.1 hr'
  exact hne ⟨Nat.le_antisymm (hfirst _ hmem') (hfirst' _ hmem), hnumber⟩

/-! ## Loans and books -/

/-- The loan with the inserts that are for it. -/
def Loan.inserted (l : Loan) (id : LoanId) (xs : List ScheduleInsert) : Loan :=
  { l with
    schedule := l.schedule ++ (liveRowsOf id xs).filterMap (·.prepare.toOption)
    history := l.history ++ (historyRowsOf id xs).filterMap (·.prepare.toOption) }

theorem Loan.inserted_nil (l : Loan) (id : LoanId) : l.inserted id [] = l := by
  simp [inserted, liveRowsOf, historyRowsOf]

theorem Loan.inserted_inserted (l : Loan) (id : LoanId) (xs ys : List ScheduleInsert) :
    (l.inserted id xs).inserted id ys = l.inserted id (xs ++ ys) := by
  simp [inserted, liveRowsOf, historyRowsOf, List.filterMap_append]

/-- An insert for another loan does not matter. -/
theorem Loan.inserted_of_ne {l : Loan} {id : LoanId} {x : ScheduleInsert} (h : x.loan ≠ id) :
    l.inserted id [x] = l := by
  cases x with
  | live r => simp [inserted, liveRowsOf, historyRowsOf, ScheduleInsert.live?,
      ScheduleInsert.history?, show r.loan ≠ id from h]
  | history r => simp [inserted, liveRowsOf, historyRowsOf, ScheduleInsert.live?,
      ScheduleInsert.history?, show r.loan ≠ id from h]

namespace Book

/-- The loan of the insert is there, and the insert fits. -/
def Admits (b : Book) (x : ScheduleInsert) : Prop :=
  ∃ l, b.loans.find? x.loan = some l ∧ x.Fits l

def insertAll (b : Book) (xs : List ScheduleInsert) : Except Error Book :=
  xs.foldlM (fun b x => x.write.apply b) b

/-- The later book is the earlier one with the inserts in its loans. -/
structure Inserted (b : Book) (xs : List ScheduleInsert) (b' : Book) : Prop where
  products : b'.products = b.products
  loans : ∀ id, b'.loans.find? id = (b.loans.find? id).map (·.inserted id xs)

end Book

/-! ## One insert -/

namespace ScheduleInsert

variable {b b' : Book} {l : Loan}

theorem inserted_live {r : LiveRow} {e : LiveEntry} (h : r.prepare = .ok e) (l : Loan) :
    l.inserted r.loan [.live r] = { l with schedule := l.schedule ++ [e] } := by
  simp [Loan.inserted, liveRowsOf, historyRowsOf, live?, history?, h, Except.toOption]

theorem inserted_history {r : HistoryRow} {e : HistoryEntry} (h : r.prepare = .ok e) (l : Loan) :
    l.inserted r.loan [.history r] = { l with history := l.history ++ [e] } := by
  simp [Loan.inserted, liveRowsOf, historyRowsOf, live?, history?, h, Except.toOption]

/-- A check that is passed. -/
theorem ite_error_eq_ok_iff {ε : Type} {p : Prop} [Decidable p] {e : ε} {a v : α} :
    (if p then .error e else .ok a : Except ε α) = .ok v ↔ ¬p ∧ v = a := by
  by_cases hp : p
  · rw [if_pos hp]
    exact iff_of_false (fun h => by cases h) fun h => h.1 hp
  · rw [if_neg hp, Except.ok.injEq, eq_comm]
    exact (and_iff_right hp).symm

/-- An insert is accepted if it is admitted, and then its loan has it. -/
theorem apply_eq_ok_iff {x : ScheduleInsert} :
    x.write.apply b = .ok b' ↔ ∃ l, b.loans.find? x.loan = some l ∧ x.Fits l ∧
      b' = ⟨b.products, b.loans.put x.loan (l.inserted x.loan [x])⟩ := by
  cases x with
  | live r =>
    show (r.prepare >>= b.addLive r.loan) = .ok b' ↔ ∃ l, b.loans.find? r.loan = some l ∧
      ((∃ e, r.prepare = .ok e) ∧ ∀ e ∈ l.schedule, e.installment ≠ r.installment) ∧
      b' = ⟨b.products, b.loans.put r.loan (l.inserted r.loan [.live r])⟩
    cases hrow : r.prepare with
    | error f => simp [bind, Except.bind]
    | ok e =>
      have hnumber : e.installment = r.installment := (LiveRow.becomes_of_prepare hrow).installment
      cases hl : b.loans.find? r.loan with
      | none => simp [bind, Except.bind, Book.addLive, hl]
      | some l =>
        simp only [bind, Except.bind, Book.addLive, hl, ite_error_eq_ok_iff, hnumber,
          inserted_live hrow]
        simp
  | history r =>
    show (r.prepare >>= b.addHistory r.loan) = .ok b' ↔ ∃ l, b.loans.find? r.loan = some l ∧
      ((∃ e, r.prepare = .ok e) ∧
        ∀ e ∈ l.history, ¬(e.version = r.version ∧ e.installment = r.installment)) ∧
      b' = ⟨b.products, b.loans.put r.loan (l.inserted r.loan [.history r])⟩
    cases hrow : r.prepare with
    | error f => simp [bind, Except.bind]
    | ok e =>
      obtain ⟨hversion, hnumber, -, -⟩ := HistoryRow.becomes_of_prepare hrow
      cases hl : b.loans.find? r.loan with
      | none => simp [bind, Except.bind, Book.addHistory, hl]
      | some l =>
        simp only [bind, Except.bind, Book.addHistory, hl, ite_error_eq_ok_iff, hversion, hnumber,
          inserted_history hrow]
        simp

/-- What was inserted takes its number, and nothing else is refused for it. -/
theorem fits_inserted_iff {x y : ScheduleInsert} {l₀ : Loan} (hx : x.Fits l₀) (l : Loan) :
    y.Fits (l.inserted y.loan [x]) ↔ y.Fits l ∧ ¬x.Clashes y := by
  by_cases hloan : x.loan = y.loan
  · rw [← hloan]
    cases x with
    | live r =>
      obtain ⟨⟨e, he⟩, -⟩ := hx
      have hnumber : e.installment = r.installment := (LiveRow.becomes_of_prepare he).installment
      show y.Fits (l.inserted r.loan [.live r]) ↔ _
      rw [inserted_live he]
      cases y with
      | live r' =>
        have hsame : r.loan = r'.loan := hloan
        simp [Fits, Clashes, hnumber, hsame, or_imp, forall_and, and_assoc]
      | history r' => exact (and_iff_left not_false).symm
    | history r =>
      obtain ⟨⟨e, he⟩, -⟩ := hx
      obtain ⟨hversion, hnumber, -, -⟩ := HistoryRow.becomes_of_prepare he
      show y.Fits (l.inserted r.loan [.history r]) ↔ _
      rw [inserted_history he]
      cases y with
      | live r' => exact (and_iff_left not_false).symm
      | history r' =>
        have hsame : r.loan = r'.loan := hloan
        simp [Fits, Clashes, hversion, hnumber, hsame, or_imp, forall_and, and_assoc]
  · rw [Loan.inserted_of_ne hloan]
    exact (and_iff_left fun h => hloan h.loan_eq).symm

end ScheduleInsert

namespace Book

variable {b b' b₁ : Book} {xs ys : List ScheduleInsert} {x y : ScheduleInsert}

theorem exists_apply_iff : (∃ b', x.write.apply b = .ok b') ↔ b.Admits x := by
  constructor
  · rintro ⟨b', h⟩
    obtain ⟨l, hl, hfits, -⟩ := ScheduleInsert.apply_eq_ok_iff.1 h
    exact ⟨l, hl, hfits⟩
  · rintro ⟨l, hl, hfits⟩
    exact ⟨_, ScheduleInsert.apply_eq_ok_iff.2 ⟨l, hl, hfits, rfl⟩⟩

theorem inserted_of_apply (h : x.write.apply b = .ok b') : b.Inserted [x] b' := by
  obtain ⟨l, hl, -, rfl⟩ := ScheduleInsert.apply_eq_ok_iff.1 h
  refine ⟨rfl, fun id => ?_⟩
  rw [Table.find?_put]
  split
  · next heq =>
    cases heq
    rw [hl]
    rfl
  · next hne =>
    cases b.loans.find? id with
    | none => rfl
    | some l' => rw [Option.map_some, Loan.inserted_of_ne (Ne.symm hne)]

/-- An accepted insert keeps out those that clash with it, and only those. -/
theorem admits_iff_of_apply (h : x.write.apply b = .ok b₁) :
    b₁.Admits y ↔ b.Admits y ∧ ¬x.Clashes y := by
  obtain ⟨l₀, -, hx, -⟩ := ScheduleInsert.apply_eq_ok_iff.1 h
  unfold Admits
  rw [(inserted_of_apply h).loans y.loan]
  cases b.loans.find? y.loan with
  | none => simp
  | some l => simp [ScheduleInsert.fits_inserted_iff hx l]

/-! ## All inserts -/

theorem insertAll_cons (b : Book) (x : ScheduleInsert) (xs : List ScheduleInsert) :
    b.insertAll (x :: xs) = x.write.apply b >>= fun b₁ => b₁.insertAll xs :=
  List.foldlM_cons

/-- Inserts are accepted if each is admitted at first and no two of them clash. -/
theorem exists_insertAll_iff :
    (∃ b', b.insertAll xs = .ok b') ↔
      (∀ x ∈ xs, b.Admits x) ∧ xs.Pairwise fun x y => ¬x.Clashes y := by
  induction xs generalizing b with
  | nil => exact iff_of_true ⟨b, rfl⟩ ⟨List.forall_mem_nil _, .nil⟩
  | cons x xs ih =>
    rw [List.forall_mem_cons, List.pairwise_cons, insertAll_cons]
    constructor
    · rintro ⟨b', h⟩
      obtain ⟨b₁, happly, h⟩ := exists_of_bind_eq_ok h
      obtain ⟨hadmits, hpairs⟩ := ih.1 ⟨b', h⟩
      refine ⟨⟨exists_apply_iff.1 ⟨b₁, happly⟩, fun y hy => ?_⟩, fun y hy => ?_, hpairs⟩
      · exact ((admits_iff_of_apply happly).1 (hadmits y hy)).1
      · exact ((admits_iff_of_apply happly).1 (hadmits y hy)).2
    · rintro ⟨⟨hx, hxs⟩, hclash, hpairs⟩
      obtain ⟨b₁, happly⟩ := exists_apply_iff.2 hx
      rw [happly]
      refine ih.2 ⟨fun y hy => ?_, hpairs⟩
      exact (admits_iff_of_apply happly).2 ⟨hxs y hy, hclash y hy⟩

/-- Inserts that are accepted in one order are accepted in any other one. -/
theorem exists_insertAll_of_perm (hperm : xs.Perm ys) (h : b.insertAll xs = .ok b') :
    ∃ b'', b.insertAll ys = .ok b'' := by
  obtain ⟨hadmits, hpairs⟩ := exists_insertAll_iff.1 ⟨b', h⟩
  refine exists_insertAll_iff.2 ⟨fun y hy => hadmits y (hperm.mem_iff.2 hy), ?_⟩
  exact (hperm.pairwise_iff fun hxy hyx => hxy hyx.symm).1 hpairs

theorem inserted_of_insertAll (h : b.insertAll xs = .ok b') : b.Inserted xs b' := by
  induction xs generalizing b with
  | nil =>
    cases h
    refine ⟨rfl, fun id => ?_⟩
    simp only [Loan.inserted_nil, Option.map_id_fun']
    rfl
  | cons x xs ih =>
    rw [insertAll_cons] at h
    obtain ⟨b₁, happly, h⟩ := exists_of_bind_eq_ok h
    have hfirst := inserted_of_apply happly
    have hrest := ih h
    refine ⟨hrest.products.trans hfirst.products, fun id => ?_⟩
    rw [hrest.loans, hfirst.loans, Option.map_map]
    refine congrArg (Option.map · _) (funext fun l => ?_)
    exact Loan.inserted_inserted l id [x] xs

end Book

/-- Inserts are accepted by a store as they are by its book. -/
theorem Store.exec_inserts_eq_ok_iff {b : Book} {t : ArrearsTable} {tx : Bool} {s' : Store}
    {xs : List ScheduleInsert} :
    (xs.forM (·.write.act) : Act Store Unit).exec ⟨some ⟨b, t⟩, tx⟩ = (.ok (), s') ↔
      ∃ b', b.insertAll xs = .ok b' ∧ s' = ⟨some ⟨b', t⟩, tx⟩ := by
  induction xs generalizing b with
  | nil =>
    constructor
    · intro h
      cases h
      exact ⟨b, rfl, rfl⟩
    · rintro ⟨b', hb', rfl⟩
      cases hb'
      rfl
  | cons x xs ih =>
    show (x.write.act >>= fun _ => xs.forM (·.write.act) : Act Store Unit).exec _ = _ ↔ _
    have hact : x.write.act.exec ⟨some ⟨b, t⟩, tx⟩ = _ := Store.exec_act x.write
    rw [Book.insertAll_cons]
    cases happly : x.write.apply b with
    | error e =>
      rw [happly] at hact
      rw [Act.exec_bind_error hact]
      constructor
      · intro h
        cases h
      · rintro ⟨b', hb', -⟩
        cases hb'
    | ok b₁ =>
      rw [happly] at hact
      rw [Act.exec_bind_ok hact]
      exact ih

end LoanArrears
