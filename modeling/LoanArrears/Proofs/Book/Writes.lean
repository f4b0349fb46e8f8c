-- SUMMARY: The writes of the loan module as data: what each can do to a book, and what holds of every book built by them.
import LoanArrears.Proofs.Book.Compute
import LoanArrears.Proofs.Store.Writing
import Mathlib.Data.List.Nodup

/-!
# Writes of the loan module

A `LoanWrite` is one call of the loan module. It either fails and leaves the store as it is,
or it makes one of the changes of `LoanWrite.Changes`, all in the book. So in a book that
was built by such writes from nothing, every loan has its product, and ids and numbers stay in
the ranges of their columns (`Book.Sound`).
-/

namespace LoanArrears

inductive LoanWrite where
  | insertProduct (r : ProductRow)
  | insertLoan (r : LoanRow)
  | insertSchedule (r : LiveRow)
  | insertHistory (r : HistoryRow)
  | repay (loan : LoanId) (installment : Nat) (amount : Amounts)
  | setStatus (loan : LoanId) (status : Status)
  | setStatusCode (loan : LoanId) (code : Int)

/-- An id fits in 64 bits with a sign. -/
def IsId (id : Int) : Prop :=
  -(Bound.int64 : Int) ≤ id ∧ id < Bound.int64

instance (id : Int) : Decidable (IsId id) :=
  inferInstanceAs (Decidable (_ ∧ _))

namespace LoanWrite

def act : LoanWrite → Act Store Unit
  | .insertProduct r => Store.insertProduct r
  | .insertLoan r => Store.insertLoan r
  | .insertSchedule r => Store.insertSchedule r
  | .insertHistory r => Store.insertHistory r
  | .repay loan installment amount => Store.repay loan installment amount
  | .setStatus loan status => Store.setStatus loan status
  | .setStatusCode loan code => Store.setStatusCode loan code

/-- Ids fit in 64 bits, days of grace and numbers of installments and versions in 32. -/
def InRange : LoanWrite → Prop
  | .insertProduct r => IsId r.id ∧ r.grace < Bound.nat32
  | .insertLoan r =>
    IsId r.id ∧ IsId r.product ∧ ∀ grace, r.grace = some grace → grace < Bound.nat32
  | .insertSchedule r => IsId r.loan ∧ r.installment < Bound.nat32
  | .insertHistory r => IsId r.loan ∧ r.version < Bound.nat32 ∧ r.installment < Bound.nat32
  | .repay loan installment _ => IsId loan ∧ installment < Bound.nat32
  | .setStatus loan _ => IsId loan
  | .setStatusCode loan code => IsId loan ∧ IsId code

/-- The book after the write. -/
def apply : LoanWrite → Book → Except Error Book
  | .insertProduct r, b => b.addProduct r
  | .insertLoan r, b => do b.addLoan r.id (← r.prepare)
  | .insertSchedule r, b => do b.addLive r.loan (← r.prepare)
  | .insertHistory r, b => do b.addHistory r.loan (← r.prepare)
  | .repay loan installment amount, b => do b.repay loan installment (← Amounts.toCents amount)
  | .setStatus loan status, b => b.setStatus loan status
  | .setStatusCode loan code, b => .ok (b.setStatusCode loan code)

end LoanWrite

/-- The store after writes of the loan module, those that fail included. -/
def Store.after (s : Store) (ws : List LoanWrite) : Store :=
  ws.foldl (fun s w => (w.act.exec s).2) s

/-- The book after writes, without those that fail. -/
def Book.after (b : Book) (ws : List LoanWrite) : Book :=
  ws.foldl (fun b w => (w.apply b).toOption.getD b) b

/-- The book comes from writes of the loan module on a new store. -/
def Book.IsBuilt (b : Book) : Prop :=
  ∃ ws : List LoanWrite, (∀ w ∈ ws, w.InRange) ∧ (Store.new.after ws).HasBook b

/-! ## Writes on a store -/

namespace Store

variable {b : Book} {t : ArrearsTable} {tx : Bool}

theorem exec_updateBook (table : String) (f : Book → Except Error Book) :
    (changing (updateBook table f) : Act Store Unit).exec ⟨some ⟨b, t⟩, tx⟩ =
      match f b with
      | .ok b' => (.ok (), ⟨some ⟨b', t⟩, tx⟩)
      | .error e => (.error (.error e), ⟨some ⟨b, t⟩, tx⟩) := by
  rw [exec_changing, updateBook, update, Act.exec_ofExec]
  dsimp only
  cases f b <;> rfl

/-- A row that cannot be prepared is an error before the store is touched. -/
theorem exec_prepared (x : Except Error α) (table : String) (f : α → Book → Except Error Book) :
    (do changing (updateBook table (f (← x))) : Act Store Unit).exec ⟨some ⟨b, t⟩, tx⟩ =
      match (do f (← x) b : Except Error Book) with
      | .ok b' => (.ok (), ⟨some ⟨b', t⟩, tx⟩)
      | .error e => (.error (.error e), ⟨some ⟨b, t⟩, tx⟩) := by
  cases x with
  | error e => exact Act.exec_bind_error (Act.Reads.lift_error _)
  | ok a =>
    exact (Act.exec_bind_ok (Act.Reads.pure a)).trans (exec_updateBook table (f a))

theorem exec_act (w : LoanWrite) :
    w.act.exec ⟨some ⟨b, t⟩, tx⟩ =
      match w.apply b with
      | .ok b' => (.ok (), ⟨some ⟨b', t⟩, tx⟩)
      | .error e => (.error (.error e), ⟨some ⟨b, t⟩, tx⟩) := by
  cases w with
  | insertProduct r => exact exec_updateBook _ _
  | insertLoan r => exact exec_prepared r.prepare _ fun loan b => b.addLoan r.id loan
  | insertSchedule r => exact exec_prepared r.prepare _ fun entry b => b.addLive r.loan entry
  | insertHistory r => exact exec_prepared r.prepare _ fun entry b => b.addHistory r.loan entry
  | repay loan installment amount =>
    exact exec_prepared (Amounts.toCents amount) _ fun cents b => b.repay loan installment cents
  | setStatus loan status => exact exec_updateBook _ _
  | setStatusCode loan code => exact exec_updateBook _ _

/-- Writes of the loan module change the book only. -/
theorem after_eq (b : Book) (t : ArrearsTable) (tx : Bool) (ws : List LoanWrite) :
    Store.after ⟨some ⟨b, t⟩, tx⟩ ws = ⟨some ⟨b.after ws, t⟩, tx⟩ := by
  induction ws generalizing b with
  | nil => rfl
  | cons w ws ih =>
    have hstep : (w.act.exec ⟨some ⟨b, t⟩, tx⟩).2 =
        ⟨some ⟨(w.apply b).toOption.getD b, t⟩, tx⟩ := by
      rw [exec_act]
      cases w.apply b <;> rfl
    show Store.after (w.act.exec ⟨some ⟨b, t⟩, tx⟩).2 ws = _
    rw [hstep, ih]
    rfl

end Store

/-! ## Prepared rows -/

/-- The entry is what is kept of the row. -/
structure LiveRow.Becomes (r : LiveRow) (e : LiveEntry) : Prop where
  installment : e.installment = r.installment
  dueDate : e.dueDate = r.dueDate
  due : Amounts.toCents r.due = .ok e.due
  completed : ∃ c, Amounts.toCents r.completed = .ok c ∧ e.completed = exactly c
  waived : Amounts.toCents r.waived = .ok e.waived
  writtenOff : Amounts.toCents r.writtenOff = .ok e.writtenOff
  fullyCompleted : e.fullyCompleted = r.fullyCompleted

structure HistoryRow.Becomes (r : HistoryRow) (e : HistoryEntry) : Prop where
  version : e.version = r.version
  installment : e.installment = r.installment
  dueDate : e.dueDate = r.dueDate
  due : Amounts.toCents r.due = .ok e.due

theorem LiveRow.becomes_of_prepare {r : LiveRow} {e : LiveEntry} (h : r.prepare = .ok e) :
    r.Becomes e := by
  obtain ⟨due, hdue, h⟩ := exists_of_bind_eq_ok h
  obtain ⟨completed, hcompleted, h⟩ := exists_of_bind_eq_ok h
  obtain ⟨waived, hwaived, h⟩ := exists_of_bind_eq_ok h
  obtain ⟨writtenOff, hwrittenOff, h⟩ := exists_of_bind_eq_ok h
  cases h
  exact ⟨rfl, rfl, hdue, ⟨completed, hcompleted, rfl⟩, hwaived, hwrittenOff, rfl⟩

theorem HistoryRow.becomes_of_prepare {r : HistoryRow} {e : HistoryEntry}
    (h : r.prepare = .ok e) : r.Becomes e := by
  obtain ⟨due, hdue, h⟩ := exists_of_bind_eq_ok h
  cases h
  exact ⟨rfl, rfl, rfl, hdue⟩

/-! ## What a write can do -/

/-- A repayment that is posted is one of a loan that is there. -/
theorem Book.exists_of_repay {b b' : Book} {id : LoanId} {installment : Nat}
    {amount : Buckets Cents} (h : b.repay id installment amount = .ok b') :
    ∃ l, b.loans.find? id = some l ∧
      b' = ⟨b.products, b.loans.put id (l.repay installment amount)⟩ := by
  unfold Book.repay at h
  split at h
  · next l hl =>
    split at h
    · cases h
      exact ⟨l, hl, rfl⟩
    · cases h
  · cases h

namespace LoanWrite

/-- The changes that a write can make to a book. -/
inductive Changes (w : LoanWrite) (b : Book) : Book → Prop where
  | nothing : Changes w b b
  | product (id : Int) (p : Product) (hnew : b.products.find? id = none) :
    Changes w b ⟨b.products.put id p, b.loans⟩
  | loan (id : LoanId) (l : Loan) (hnew : b.loans.find? id = none)
    (hproduct : (b.products.find? l.product).isSome) (hhistory : l.history = [])
    (hid : w.InRange → IsId id) : Changes w b ⟨b.products, b.loans.put id l⟩
  | update (id : LoanId) (l l' : Loan) (hl : b.loans.find? id = some l)
    (hproduct : l'.product = l.product) (hhistory : l'.history = l.history) :
    Changes w b ⟨b.products, b.loans.put id l'⟩
  | history (id : LoanId) (l : Loan) (e : HistoryEntry) (hl : b.loans.find? id = some l)
    (hnew : ∀ e' ∈ l.history, ¬(e'.version = e.version ∧ e'.installment = e.installment))
    (hrange : w.InRange → e.installment < Bound.nat32) :
    Changes w b ⟨b.products, b.loans.put id { l with history := l.history ++ [e] }⟩

theorem changes_addProduct {w : LoanWrite} {b b' : Book} {r : ProductRow}
    (h : b.addProduct r = .ok b') : w.Changes b b' := by
  unfold Book.addProduct at h
  split at h
  · cases h
  · next hcontains =>
    cases h
    refine .product _ _ ?_
    simpa [Table.contains] using hcontains

theorem changes_addLoan {w : LoanWrite} {b b' : Book} {id : LoanId} {l : Loan}
    (hid : w.InRange → IsId id) (hhistory : l.history = []) (h : b.addLoan id l = .ok b') :
    w.Changes b b' := by
  unfold Book.addLoan at h
  split at h
  · cases h
  · next hcontains =>
    split at h
    · cases h
    · next hproduct =>
      cases h
      refine .loan id l ?_ ?_ hhistory hid
      · simpa [Table.contains] using hcontains
      · simpa only [Bool.not_eq_true, Bool.not_eq_false', Table.contains] using hproduct

theorem changes_addLive {w : LoanWrite} {b b' : Book} {id : LoanId} {e : LiveEntry}
    (h : b.addLive id e = .ok b') : w.Changes b b' := by
  unfold Book.addLive at h
  split at h
  · cases h
  · next l hl =>
    split at h
    · cases h
    · cases h
      exact .update id l _ hl rfl rfl

theorem changes_addHistory {w : LoanWrite} {b b' : Book} {id : LoanId} {e : HistoryEntry}
    (hrange : w.InRange → e.installment < Bound.nat32) (h : b.addHistory id e = .ok b') :
    w.Changes b b' := by
  unfold Book.addHistory at h
  split at h
  · cases h
  · next l hl =>
    dsimp only at h
    split at h
    · cases h
    · next hknown =>
      cases h
      refine .history id l e hl ?_ hrange
      simpa using hknown

theorem changes_repay {w : LoanWrite} {b b' : Book} {id : LoanId} {installment : Nat}
    {amount : Buckets Cents} (h : b.repay id installment amount = .ok b') : w.Changes b b' := by
  obtain ⟨l, hl, rfl⟩ := Book.exists_of_repay h
  exact .update id l _ hl rfl rfl

theorem changes_setStatus {w : LoanWrite} {b b' : Book} {id : LoanId} {status : Status}
    (h : b.setStatus id status = .ok b') : w.Changes b b' := by
  unfold Book.setStatus at h
  split at h
  · next l hl =>
    cases h
    exact .update id l _ hl rfl rfl
  · cases h

theorem changes_setStatusCode (w : LoanWrite) (b : Book) (id : LoanId) (code : Int) :
    w.Changes b (b.setStatusCode id code) := by
  unfold Book.setStatusCode
  split
  · next l hl => exact .update id l _ hl rfl rfl
  · exact .nothing

theorem history_of_prepare {r : LoanRow} {l : Loan} (h : r.prepare = .ok l) : l.history = [] := by
  obtain ⟨repaid, -, h⟩ := exists_of_bind_eq_ok h
  obtain ⟨waived, -, h⟩ := exists_of_bind_eq_ok h
  obtain ⟨writtenOff, -, h⟩ := exists_of_bind_eq_ok h
  cases h
  rfl

/-- A write that succeeds makes one of the changes. -/
theorem changes_of_apply {w : LoanWrite} {b b' : Book} (h : w.apply b = .ok b') :
    w.Changes b b' := by
  cases w with
  | insertProduct r => exact changes_addProduct h
  | insertLoan r =>
    obtain ⟨l, hl, h⟩ := exists_of_bind_eq_ok h
    exact changes_addLoan (fun hrange => hrange.1) (history_of_prepare hl) h
  | insertSchedule r =>
    obtain ⟨e, -, h⟩ := exists_of_bind_eq_ok h
    exact changes_addLive h
  | insertHistory r =>
    obtain ⟨e, he, h⟩ := exists_of_bind_eq_ok h
    have hinstallment : e.installment = r.installment := (r.becomes_of_prepare he).installment
    exact changes_addHistory (fun hrange => hinstallment ▸ hrange.2.2) h
  | repay loan installment amount =>
    obtain ⟨cents, -, h⟩ := exists_of_bind_eq_ok h
    exact changes_repay h
  | setStatus loan status => exact changes_setStatus h
  | setStatusCode loan code =>
    cases h
    exact changes_setStatusCode _ b loan code

end LoanWrite

/-! ## What holds of every book -/

/-- Entries of the history have numbers of their own, and those of installments are in range. -/
structure Loan.HasNumberedHistory (l : Loan) : Prop where
  distinct : l.history.Pairwise fun e e' =>
    ¬(e.version = e'.version ∧ e.installment = e'.installment)
  lt : ∀ e ∈ l.history, e.installment < Bound.nat32

/-- Every loan refers to a product. -/
def Book.HasReferences (b : Book) : Prop :=
  ∀ id l, b.loans.find? id = some l → (b.products.find? l.product).isSome

structure Book.Sound (b : Book) : Prop where
  references : b.HasReferences
  ids : ∀ id l, b.loans.find? id = some l → IsId id
  histories : ∀ id l, b.loans.find? id = some l → l.HasNumberedHistory

namespace LoanWrite.Changes

variable {w : LoanWrite} {b b' : Book}

/-- Products that are there stay as they are. -/
theorem products (h : w.Changes b b') {id : Int} {p : Product} (hp : b.products.find? id = some p) :
    b'.products.find? id = some p := by
  cases h with
  | nothing => exact hp
  | product id' p' hnew =>
    rw [Table.find?_put, if_neg]
    · exact hp
    · rintro rfl
      rw [hnew] at hp
      cases hp
  | loan id' l hnew hproduct hhistory hid => exact hp
  | update id' l l' hl hproduct hhistory => exact hp
  | history id' l e hl hnew hrange => exact hp

/-- Every loan of the later book has a property that new loans have and updates keep. -/
theorem loans {p : LoanId → Loan → Prop} (h : w.Changes b b')
    (hold : ∀ id l, b.loans.find? id = some l → p id l)
    (hnew : ∀ id l, (b.products.find? l.product).isSome → l.history = [] →
      (w.InRange → IsId id) → p id l)
    (hupdate : ∀ id l l', p id l → l'.product = l.product → l'.history = l.history → p id l')
    (hhistory : ∀ id l e, p id l →
      (∀ e' ∈ l.history, ¬(e'.version = e.version ∧ e'.installment = e.installment)) →
      (w.InRange → e.installment < Bound.nat32) → p id { l with history := l.history ++ [e] })
    {id : LoanId} {l : Loan} (hl : b'.loans.find? id = some l) : p id l := by
  cases h with
  | nothing => exact hold id l hl
  | product id' p' hfresh => exact hold id l hl
  | loan id' l' hfresh hproduct hempty hid =>
    rw [Table.find?_put] at hl
    split at hl
    · next heq =>
      cases hl
      cases heq
      exact hnew id l hproduct hempty hid
    · exact hold id l hl
  | update id' l₀ l' hl₀ hproduct hsame =>
    rw [Table.find?_put] at hl
    split at hl
    · next heq =>
      cases hl
      cases heq
      exact hupdate id l₀ l (hold id l₀ hl₀) hproduct hsame
    · exact hold id l hl
  | history id' l₀ e hl₀ hfresh hrange =>
    rw [Table.find?_put] at hl
    split at hl
    · next heq =>
      cases hl
      cases heq
      exact hhistory id l₀ e (hold id l₀ hl₀) hfresh hrange
    · exact hold id l hl

theorem hasReferences (h : w.Changes b b') (hb : b.HasReferences) : b'.HasReferences := by
  have hkept {id : Int} (hid : (b.products.find? id).isSome) : (b'.products.find? id).isSome := by
    obtain ⟨p, hp⟩ := Option.isSome_iff_exists.1 hid
    rw [h.products hp]
    rfl
  intro id l hl
  refine h.loans (p := fun _ l => (b'.products.find? l.product).isSome) ?_ ?_ ?_ ?_ hl
  · intro id l hl
    exact hkept (hb id l hl)
  · intro id l hproduct _ _
    exact hkept hproduct
  · intro id l l' hl hproduct _
    rw [hproduct]
    exact hl
  · intro id l e hl _ _
    exact hl

theorem sound (h : w.Changes b b') (hw : w.InRange) (hb : b.Sound) : b'.Sound where
  references := h.hasReferences hb.references
  ids id l hl := by
    refine h.loans (p := fun id _ => IsId id) hb.ids ?_ ?_ ?_ hl
    · intro id l _ _ hid
      exact hid hw
    · intro id l l' hid _ _
      exact hid
    · intro id l e hid _ _
      exact hid
  histories id l hl := by
    refine h.loans (p := fun _ l => l.HasNumberedHistory) hb.histories ?_ ?_ ?_ hl
    · intro id l _ hempty _
      exact ⟨hempty ▸ .nil, hempty ▸ List.forall_mem_nil _⟩
    · intro id l l' hl _ hsame
      exact ⟨hsame ▸ hl.distinct, hsame ▸ hl.lt⟩
    · intro id l e hl hfresh hrange
      refine ⟨?_, ?_⟩
      · refine List.pairwise_append.2 ⟨hl.distinct, List.pairwise_singleton _ e, ?_⟩
        intro e₁ he₁ e₂ he₂
        rw [List.mem_singleton.1 he₂]
        exact hfresh e₁ he₁
      · intro e' he'
        rcases List.mem_append.1 he' with he' | he'
        · exact hl.lt e' he'
        · rw [List.mem_singleton.1 he']
          exact hrange hw

end LoanWrite.Changes

namespace Book

theorem sound_empty : Book.empty.Sound where
  references id l hl := by cases hl
  ids id l hl := by cases hl
  histories id l hl := by cases hl

/-- What each write keeps is kept by all of them. -/
theorem after_of_step {p : Book → Prop}
    (hstep : ∀ (b : Book) (w : LoanWrite) (b' : Book), w.InRange → w.apply b = .ok b' → p b → p b')
    {b : Book} (hb : p b) {ws : List LoanWrite} (hws : ∀ w ∈ ws, w.InRange) : p (b.after ws) := by
  induction ws generalizing b with
  | nil => exact hb
  | cons w ws ih =>
    have hnext : p ((w.apply b).toOption.getD b) := by
      cases happly : w.apply b with
      | error e => exact hb
      | ok b' => exact hstep b w b' (hws w List.mem_cons_self) happly hb
    exact ih hnext fun w' hw' => hws w' (List.mem_cons_of_mem _ hw')

/-- What a sequence of writes keeps: references, and the products that are there. -/
theorem after_keeps {b : Book} (hb : b.HasReferences) (ws : List LoanWrite) :
    (b.after ws).HasReferences ∧
      ∀ id p, b.products.find? id = some p → (b.after ws).products.find? id = some p := by
  induction ws generalizing b with
  | nil => exact ⟨hb, fun _ _ h => h⟩
  | cons w ws ih =>
    show (((w.apply b).toOption.getD b).after ws).HasReferences ∧ ∀ id p, _ →
      (((w.apply b).toOption.getD b).after ws).products.find? id = some p
    cases happly : w.apply b with
    | error e => exact ih hb
    | ok b' =>
      have hchanges := LoanWrite.changes_of_apply happly
      obtain ⟨hreferences, hproducts⟩ := ih (hchanges.hasReferences hb)
      exact ⟨hreferences, fun id p hp => hproducts id p (hchanges.products hp)⟩

/-- What the empty book has and each write keeps holds of every book that is built. -/
theorem IsBuilt.of_step {p : Book → Prop} {b : Book} (h : b.IsBuilt) (hempty : p Book.empty)
    (hstep : ∀ (b : Book) (w : LoanWrite) (b' : Book),
      w.InRange → w.apply b = .ok b' → p b → p b') : p b := by
  obtain ⟨ws, hws, t, ht⟩ := h
  have hafter : (Store.new.after ws).tables = some ⟨Book.empty.after ws, .empty⟩ :=
    congrArg Store.tables (Store.after_eq Book.empty Table.empty false ws)
  rw [hafter] at ht
  cases ht
  exact after_of_step hstep hempty hws

theorem IsBuilt.sound {b : Book} (h : b.IsBuilt) : b.Sound :=
  h.of_step sound_empty fun _ _ _ hw happly hb =>
    (LoanWrite.changes_of_apply happly).sound hw hb

/-- More writes on a built book build another one. -/
theorem IsBuilt.after {b : Book} (h : b.IsBuilt) {ws : List LoanWrite}
    (hws : ∀ w ∈ ws, w.InRange) : (b.after ws).IsBuilt := by
  obtain ⟨ws', hws', t, ht⟩ := h
  refine ⟨ws' ++ ws, fun w hw => (List.mem_append.1 hw).elim (hws' w) (hws w), t, ?_⟩
  rcases hs : Store.new.after ws' with ⟨tables, tx⟩
  rw [hs] at ht
  cases ht
  rw [Store.after, List.foldl_append]
  show (Store.after (Store.new.after ws') ws).tables = _
  rw [hs, Store.after_eq]

end Book

/-- There are no more numbers below a bound than the bound. -/
theorem length_le_of_nodup_of_lt {ns : List Nat} {bound : Nat} (hnodup : ns.Nodup)
    (hlt : ∀ n ∈ ns, n < bound) : ns.length ≤ bound := by
  have hsubset : ns ⊆ List.range bound := fun n hn => List.mem_range.2 (hlt n hn)
  have hlength := (List.subperm_of_subset hnodup hsubset).length_le
  rwa [List.length_range] at hlength

/-- A version of a schedule has no more entries than there are numbers of installments. -/
theorem Loan.HasNumberedHistory.length_plannedEntries_le {l : Loan} (h : l.HasNumberedHistory) :
    l.plannedEntries.length ≤ Bound.nat32 := by
  have hnodup : (l.plannedEntries.map (·.installment)).Nodup := by
    refine List.pairwise_map.2 ?_
    refine List.Pairwise.imp_of_mem ?_ (h.distinct.filter _)
    intro e e' he he' hdistinct hinstallment
    have hversion : some e.version = some e'.version := by
      have h₁ := (List.mem_filter.1 he).2
      have h₂ := (List.mem_filter.1 he').2
      rw [of_decide_eq_true h₁, of_decide_eq_true h₂]
    exact hdistinct ⟨Option.some.inj hversion, hinstallment⟩
  have hlt : ∀ n ∈ l.plannedEntries.map (·.installment), n < Bound.nat32 := by
    intro n hn
    obtain ⟨e, he, rfl⟩ := List.mem_map.1 hn
    exact h.lt e (List.mem_of_mem_filter he)
  have hlength := length_le_of_nodup_of_lt hnodup hlt
  rwa [List.length_map] at hlength

/-! ## A sample book -/

namespace Sample

/-- 10 January 2024. -/
def dueDate : Date := ⟨Civil.dayNumber ⟨2024, 1, 10⟩, by decide, by decide⟩

/-- 15 March 2024. -/
def today : Date := ⟨Civil.dayNumber ⟨2024, 3, 15⟩, by decide, by decide⟩

/-- Principal of 100. -/
def hundredCents : Buckets Cents := ⟨⟨10000, by decide, by decide⟩, .zero, .zero, .zero⟩

def hundred : Amounts := Amounts.ofCents hundredCents

/-- The principal of 100 taken back. -/
def minusHundred : Amounts := Amounts.ofCents ⟨⟨-10000, by decide, by decide⟩, .zero, .zero, .zero⟩

/-- Loan 1 ages off its live schedule and the other one replays its planned schedule; both have
    an overdue installment. -/
def writes (replaying : LoanId) : List LoanWrite :=
  [.insertProduct ⟨1, "live", false, 0⟩, .insertProduct ⟨2, "planned", true, 0⟩,
    .insertLoan ⟨1, 1, .active, none, .zero⟩, .insertSchedule (.unpaid 1 1 dueDate hundred),
    .insertLoan ⟨replaying, 2, .active, none, .zero⟩,
    .insertHistory ⟨replaying, 1, 1, dueDate, hundred⟩]

def book (replaying : LoanId) : Book :=
  Book.empty.after (writes replaying)

/-- A new active loan. -/
def newLoan (product : Int) : Loan where
  product := product
  status := Status.active.code
  grace := none
  repaid := exactly (.all .zero)
  waived := .all .zero
  writtenOff := .all .zero
  schedule := []
  history := []

def liveLoan : Loan :=
  { newLoan 1 with
    schedule := [⟨1, dueDate, hundredCents, exactly (.all .zero), .all .zero, .all .zero, false⟩] }

def replayingLoan : Loan :=
  { newLoan 2 with history := [⟨1, 1, dueDate, hundredCents⟩] }

theorem inRange_writes {replaying : LoanId} (h : IsId replaying) :
    ∀ w ∈ writes replaying, w.InRange := by
  simp [writes, LoanWrite.InRange, IsId, Bound.int64, Bound.nat32, LiveRow.unpaid] at h ⊢
  exact h

theorem isBuilt_book {replaying : LoanId} (h : IsId replaying) : (book replaying).IsBuilt := by
  refine ⟨writes replaying, inRange_writes h, Table.empty, ?_⟩
  exact congrArg Store.tables (Store.after_eq Book.empty Table.empty false (writes replaying))

/-- Loan 3 replays its planned schedule as well. -/
def moreWrites : List LoanWrite :=
  [.insertLoan ⟨3, 2, .active, none, .zero⟩, .insertHistory ⟨3, 1, 1, dueDate, hundred⟩]

/-- Loans 2 and 3 replay their planned schedules. -/
def twoReplaying : Book :=
  (book 2).after moreWrites

theorem isBuilt_twoReplaying : twoReplaying.IsBuilt := by
  refine (isBuilt_book (by decide)).after ?_
  simp [moreWrites, LoanWrite.InRange, IsId, Bound.int64, Bound.nat32]

end Sample

end LoanArrears
