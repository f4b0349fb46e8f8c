-- SUMMARY: A synthetic book: every seed fills an empty store with the products and with synthetic loans under the ids from one on, and counts them.
import LoanArrears.Proofs.Book.Loading
import LoanArrears.Proofs.Synthetic.Loan
import LoanArrears.Synthetic.Book

/-!
# Synthetic books

Inserting the rows of a loan puts the loan that they become into the book, since its id is free and
its installments have numbers of their own. So a book with the loans up to a number becomes one with
the loans up to the next, whatever is drawn, and the counts that are kept on the way are those of
the book.
-/

namespace LoanArrears

open Synthetic

namespace Table

/-- A row under a new key is put somewhere among the others. -/
theorem perm_putRow {key : Int} {rows : List (Int × α)} (h : rows.lookup key = none) (a : α) :
    (putRow key a rows).Perm ((key, a) :: rows) := by
  induction rows with
  | nil => exact .refl _
  | cons r rest ih =>
    rw [lookup_cons_eq_ite] at h
    split at h
    · cases h
    · next hne =>
      rw [putRow, if_neg hne]
      split
      · exact .refl _
      · exact ((ih h).cons r).trans (.swap _ _ _)

/-- It is counted if it is to be. -/
theorem countP_put {t : Table α} {key : Int} (h : t.find? key = none) (a : α)
    (counted : Int × α → Bool) :
    (t.put key a).rows.countP counted = t.rows.countP counted + (counted (key, a)).toNat := by
  have hcount := (perm_putRow h a).countP_eq counted
  rw [List.countP_cons] at hcount
  rw [show (t.put key a).rows = putRow key a t.rows from rfl, hcount]
  cases counted (key, a) <;> rfl

end Table

theorem Status.code_inj {s s' : Status} : s.code = s'.code ↔ s = s' := by
  refine ⟨fun h => ?_, congrArg code⟩
  have hsome := ofCode?_code s
  rw [h, ofCode?_code] at hsome
  exact (Option.some.inj hsome).symm

theorem LoanRow.status_of_prepare {r : LoanRow} {l : Loan} (h : r.prepare = .ok l) :
    l.status = r.status.code := by
  obtain ⟨repaid, -, h⟩ := exists_of_bind_eq_ok h
  obtain ⟨waived, -, h⟩ := exists_of_bind_eq_ok h
  obtain ⟨writtenOff, -, h⟩ := exists_of_bind_eq_ok h
  cases h
  rfl

/-! ## Inserting a loan -/

/-- Inserts for other loans do not matter. -/
theorem Loan.inserted_of_forall_ne {l : Loan} {id : LoanId} {xs : List ScheduleInsert}
    (h : ∀ x ∈ xs, x.loan ≠ id) : l.inserted id xs = l := by
  induction xs with
  | nil => exact l.inserted_nil id
  | cons x xs ih =>
    rw [List.forall_mem_cons] at h
    rw [← List.singleton_append, ← Loan.inserted_inserted, Loan.inserted_of_ne h.1]
    exact ih h.2

namespace Loan.IsSynthetic

variable {l : Loan} {today disbursed : Date} {rescheduled : Bool}

theorem nodup_numbers (h : l.IsSynthetic today disbursed rescheduled) : l.numbers.Nodup := by
  rw [h.numbers]
  exact List.nodup_range.map fun m n hmn => Nat.succ.inj hmn

/-- Installments have the numbers from one to twelve. -/
theorem number_range (h : l.IsSynthetic today disbursed rescheduled) {n : Nat}
    (hn : n ∈ l.numbers) : 1 ≤ n ∧ n ≤ 12 := by
  rw [h.numbers] at hn
  obtain ⟨k, hk, rfl⟩ := List.mem_map.1 hn
  have hlt := List.mem_range.1 hk
  have hle := h.le_twelve
  omega

/-- The planned schedule has the numbers of the live one. -/
theorem history_numbers (h : l.IsSynthetic today disbursed rescheduled) :
    l.history.map (·.installment) = if rescheduled then l.numbers else [] := by
  have hnumbers := congrArg (List.map Prod.fst) h.history
  rw [List.map_map] at hnumbers
  refine hnumbers.trans ?_
  cases rescheduled with
  | true => exact List.map_map
  | false => rfl

theorem nodup_history (h : l.IsSynthetic today disbursed rescheduled) :
    (l.history.map (·.installment)).Nodup := by
  rw [h.history_numbers]
  split
  · exact h.nodup_numbers
  · exact .nil

end Loan.IsSynthetic

namespace Synthetic

/-- Rows of one loan that are prepared to entries are found under its id, and so are the entries. -/
theorem rows_of_prepared {ρ ε : Type} {loan : ρ → LoanId} {prepare : ρ → Except Error ε}
    {rows : List ρ} {entries : List ε} {id : LoanId}
    (h : List.Forall₂ (fun x e => loan x = id ∧ prepare x = .ok e) rows entries) :
    (∀ x ∈ rows, loan x = id ∧ ∃ e, prepare x = .ok e) ∧
      rows.filterMap (fun x => (prepare x).toOption) = entries := by
  induction h with
  | nil => exact ⟨List.forall_mem_nil _, rfl⟩
  | cons hx _ ih =>
    refine ⟨List.forall_mem_cons.2 ⟨⟨hx.1, _, hx.2⟩, ih.1⟩, ?_⟩
    rw [List.filterMap_cons_some (by rw [hx.2]; rfl), ih.2]

namespace LoanRows

/-- The installments are inserted behind the loan, live ones first. -/
def inserts (r : LoanRows) : List ScheduleInsert :=
  r.live.map .live ++ r.history.map .history

variable {r : LoanRows} {id : LoanId} {l : Loan}

theorem insertRows_eq (r : LoanRows) :
    (insertRows r : Act Store Unit) =
      (LoanWrite.insertLoan r.loan).act >>= fun _ => r.inserts.forM (·.write.act) := by
  have hforM : forM (r.live.map ScheduleInsert.live ++ r.history.map .history)
      (fun x => x.write.act) = (do
        r.live.forM Store.insertSchedule
        r.history.forM Store.insertHistory) := by
    rw [List.forM_append, List.forM_map, List.forM_map]
    rfl
  exact congrArg (fun rest => Store.insertLoan r.loan >>= fun _ => rest) hforM.symm

namespace Becomes

theorem loan_of_mem (h : r.Becomes id l) {x : ScheduleInsert} (hx : x ∈ r.inserts) :
    x.loan = id := by
  rcases List.mem_append.1 hx with hx | hx
  · obtain ⟨y, hy, rfl⟩ := List.mem_map.1 hx
    exact ((rows_of_prepared h.live).1 y hy).1
  · obtain ⟨y, hy, rfl⟩ := List.mem_map.1 hx
    exact ((rows_of_prepared h.history).1 y hy).1

/-- All rows are for the loan. -/
theorem rowsOf_eq (h : r.Becomes id l) :
    liveRowsOf id r.inserts = r.live ∧ historyRowsOf id r.inserts = r.history := by
  have hlive : r.live.filterMap (fun x => (ScheduleInsert.live x).live? id) = r.live := by
    rw [List.filterMap_congr fun x hx => ScheduleInsert.live?_eq_some_iff.2
      ⟨rfl, ((rows_of_prepared h.live).1 x hx).1⟩, List.filterMap_some]
  have hhistory :
      r.history.filterMap (fun x => (ScheduleInsert.history x).history? id) = r.history := by
    rw [List.filterMap_congr fun x hx => ScheduleInsert.history?_eq_some_iff.2
      ⟨rfl, ((rows_of_prepared h.history).1 x hx).1⟩, List.filterMap_some]
  constructor
  · rw [liveRowsOf, inserts, List.filterMap_append, List.filterMap_map, List.filterMap_map]
    exact (congrArg₂ _ hlive (List.filterMap_none _)).trans (List.append_nil _)
  · rw [historyRowsOf, inserts, List.filterMap_append, List.filterMap_map, List.filterMap_map]
    exact (congrArg₂ _ (List.filterMap_none _) hhistory).trans (List.nil_append _)

/-- The loan as it is inserted, with its installments behind it, is the one that its rows become. -/
theorem inserted_eq (h : r.Becomes id l) :
    Loan.inserted { l with schedule := [], history := [] } id r.inserts = l := by
  rw [Loan.inserted, h.rowsOf_eq.1, h.rowsOf_eq.2, (rows_of_prepared h.live).2,
    (rows_of_prepared h.history).2, List.nil_append, List.nil_append]

/-- Installments with numbers of their own do not clash. -/
theorem pairwise_inserts (h : r.Becomes id l) (hlive : l.numbers.Nodup)
    (hhistory : (l.history.map (·.installment)).Nodup) :
    r.inserts.Pairwise fun x y => ¬x.Clashes y := by
  rw [Loan.numbers, map_eq_of_forall₂ (f := (·.installment)) h.live fun x e hx =>
    (LiveRow.becomes_of_prepare hx.2).installment] at hlive
  rw [map_eq_of_forall₂ (f := (·.installment)) h.history fun x e hx =>
    (HistoryRow.becomes_of_prepare hx.2).installment] at hhistory
  refine List.pairwise_append.2 ⟨List.pairwise_map.2 ?_, List.pairwise_map.2 ?_, ?_⟩
  · exact (List.pairwise_map.1 hlive).imp fun hne hclash => hne hclash.2
  · exact (List.pairwise_map.1 hhistory).imp fun hne hclash => hne hclash.2.2
  · intro x hx y hy hclash
    obtain ⟨_, -, rfl⟩ := List.mem_map.1 hx
    obtain ⟨_, -, rfl⟩ := List.mem_map.1 hy
    exact hclash

variable {b : Book} {t : ArrearsTable} {tx : Bool}

/-- Inserting the rows puts the loan into a book that has its product and not its id. -/
theorem exec_insertRows (h : r.Becomes id l) (hlive : l.numbers.Nodup)
    (hhistory : (l.history.map (·.installment)).Nodup) (hfree : b.loans.find? id = none)
    (hproduct : b.products.contains l.product) :
    (insertRows r : Act Store Unit).exec ⟨some ⟨b, t⟩, tx⟩ =
      (.ok (), ⟨some ⟨⟨b.products, b.loans.put id l⟩, t⟩, tx⟩) := by
  have hloan : (LoanWrite.insertLoan r.loan).apply b =
      .ok ⟨b.products, b.loans.put id { l with schedule := [], history := [] }⟩ := by
    have hcontains : b.loans.contains id = false := Table.contains_eq_false_iff.2 hfree
    show (r.loan.prepare >>= b.addLoan r.loan.id) = _
    rw [h.loan, h.loanId]
    simp only [bind, Except.bind, Book.addLoan, hcontains, hproduct, Bool.not_true,
      Bool.false_eq_true, if_false]
  have hfirst : (LoanWrite.insertLoan r.loan).act.exec ⟨some ⟨b, t⟩, tx⟩ = _ :=
    Store.exec_act (.insertLoan r.loan)
  rw [hloan] at hfirst
  have hadmits : ∀ x ∈ r.inserts, Book.Admits
      ⟨b.products, b.loans.put id { l with schedule := [], history := [] }⟩ x := by
    intro x hx
    refine ⟨_, (Table.find?_put _ _ _ _).trans (if_pos (h.loan_of_mem hx)), ?_⟩
    rcases List.mem_append.1 hx with hx | hx
    · obtain ⟨y, hy, rfl⟩ := List.mem_map.1 hx
      exact ⟨((rows_of_prepared h.live).1 y hy).2, List.forall_mem_nil _⟩
    · obtain ⟨y, hy, rfl⟩ := List.mem_map.1 hx
      exact ⟨((rows_of_prepared h.history).1 y hy).2, List.forall_mem_nil _⟩
  obtain ⟨b', hinserts⟩ :=
    Book.exists_insertAll_iff.2 ⟨hadmits, h.pairwise_inserts hlive hhistory⟩
  have hinserted := Book.inserted_of_insertAll hinserts
  have hbook : b' = ⟨b.products, b.loans.put id l⟩ := by
    have hloans : b'.loans = b.loans.put id l := by
      refine Table.ext_find? fun k => ?_
      rw [hinserted.loans, Table.find?_put, Table.find?_put]
      split
      · next hk => rw [hk, Option.map_some, h.inserted_eq]
      · next hk =>
        have hothers (k' : Loan) : k'.inserted k r.inserts = k' :=
          Loan.inserted_of_forall_ne fun x hx hxk => hk (hxk ▸ h.loan_of_mem hx)
        rw [funext hothers, Option.map_id']
    cases b'
    cases hinserted.products
    cases hloans
    rfl
  rw [insertRows_eq, Act.exec_bind_ok hfirst]
  exact Store.exec_inserts_eq_ok_iff.2 ⟨b', hinserts, by rw [hbook]⟩

end Becomes

end LoanRows

/-! ## Books -/

/-- The products of synthetic loans, and no loans. -/
def emptyBook : Book where
  products := products.foldl (fun t p => t.put p.id ⟨p.name, p.byPlannedSchedule, p.grace⟩) .empty
  loans := .empty

theorem find?_products : ∀ p ∈ products,
    emptyBook.products.find? p.id = some ⟨p.name, p.byPlannedSchedule, p.grace⟩ := by
  decide

end Synthetic

/-- The book has so many synthetic loans, under the ids from one on. -/
structure Book.IsSynthetic (b : Book) (count : Nat) (today : Date) : Prop where
  products : b.products = emptyBook.products
  size : b.loanCount = count
  ids : ∀ id, b.loans.contains id ↔ 1 ≤ id ∧ id ≤ count
  loans : ∀ id l, b.loans.find? id = some l →
    ∃ disbursed rescheduled, l.IsSynthetic today disbursed rescheduled

/-- The loans of the book, those with an earlier schedule, and those that are closed. -/
def Book.made (b : Book) : Made where
  loans := b.loanCount
  rescheduled := b.loans.rows.countP fun row => !row.2.history.isEmpty
  closed := b.loans.rows.countP fun row => row.2.status = Status.closedObligationsMet.code

namespace Book.IsSynthetic

variable {b : Book} {count : Nat} {today disbursed : Date} {l : Loan} {rescheduled : Bool}

theorem contains_product (h : b.IsSynthetic count today)
    (hl : l.IsSynthetic today disbursed rescheduled) : b.products.contains l.product := by
  obtain ⟨p, hp, hproduct⟩ := hl.product
  rw [h.products, hproduct, Table.contains, find?_products p hp]
  rfl

/-- The id behind those of the loans is free. -/
theorem find?_succ (h : b.IsSynthetic count today) :
    b.loans.find? ((count : Int) + 1) = none := by
  rw [← Table.contains_eq_false_iff, Bool.eq_false_iff]
  intro hcontains
  have hle := ((h.ids _).1 hcontains).2
  omega

/-- A synthetic loan can be put there. -/
theorem put (h : b.IsSynthetic count today) (hl : l.IsSynthetic today disbursed rescheduled) :
    Book.IsSynthetic ⟨b.products, b.loans.put ((count : Int) + 1) l⟩ (count + 1) today where
  products := h.products
  size := (Table.size_put h.find?_succ l).trans (congrArg (· + 1) h.size)
  ids id := by
    have hids := h.ids id
    rw [Table.contains] at hids ⊢
    rw [Table.find?_put]
    split
    · next hid =>
      subst hid
      exact iff_of_true rfl (by omega)
    · next hid =>
      rw [hids]
      omega
  loans id l' hl' := by
    rw [Table.find?_put] at hl'
    split at hl'
    · cases hl'
      exact ⟨disbursed, rescheduled, hl⟩
    · exact h.loans id l' hl'

/-- It is counted by its rows. -/
theorem made_put (h : b.IsSynthetic count today) {r : LoanRows} {id : LoanId}
    (hr : r.Becomes id l) :
    Book.made ⟨b.products, b.loans.put ((count : Int) + 1) l⟩ = b.made.count r := by
  have hhistory : r.isRescheduled = !l.history.isEmpty := by
    have hempty : r.history.isEmpty = l.history.isEmpty := by
      rw [Bool.eq_iff_iff, List.isEmpty_iff_length_eq_zero, List.isEmpty_iff_length_eq_zero,
        hr.history.length_eq]
    rw [LoanRows.isRescheduled, hempty]
  have hstatus : r.isClosed = decide (l.status = Status.closedObligationsMet.code) := by
    have hcode := LoanRow.status_of_prepare hr.loan
    rw [LoanRows.isClosed, show l.status = _ from hcode, decide_eq_decide, Status.code_inj]
  rw [Book.made, Table.countP_put h.find?_succ, Table.countP_put h.find?_succ, Made.count, hhistory,
    hstatus]
  exact congrArg (Made.mk · _ _) (Table.size_put h.find?_succ l)

end Book.IsSynthetic

namespace Synthetic

variable {today : Date} {t : ArrearsTable} {tx : Bool}

/-- Inserting more loans makes a book with so many more. -/
theorem exists_insertLoans (htoday : today.HasRoom) (count : Nat) {b : Book} {before : Nat}
    (hb : b.IsSynthetic before today) (g : Generator) :
    ∃ b', (insertLoans today g ((before : Int) + 1) b.made count : Act Store Made).exec
        ⟨some ⟨b, t⟩, tx⟩ = (.ok b'.made, ⟨some ⟨b', t⟩, tx⟩) ∧
      b'.IsSynthetic (before + count) today := by
  induction count generalizing b before g with
  | zero => exact ⟨b, rfl, hb⟩
  | succ count ih =>
    obtain ⟨r, g', hdraw, l, disbursed, rescheduled, hr, hl⟩ :=
      yields_drawLoan htoday ((before : Int) + 1) g
    have hinsert : (insertRows r : Act Store Unit).exec ⟨some ⟨b, t⟩, tx⟩ = _ :=
      hr.exec_insertRows hl.nodup_numbers hl.nodup_history hb.find?_succ (hb.contains_product hl)
    obtain ⟨b', hexec, hb'⟩ := ih (hb.put hl) g'
    refine ⟨b', ?_, ?_⟩
    · rw [insertLoans, hdraw]
      refine (Act.exec_bind_ok (Act.Reads.pure _)).trans ?_
      refine (Act.exec_bind_ok hinsert).trans ?_
      rw [hb.made_put hr] at hexec
      exact_mod_cast hexec
    · rw [Nat.add_right_comm] at hb'
      exact hb'

theorem exec_insertMissing :
    (products.forM insertMissing : Act Store Unit).exec ⟨some Tables.empty, true⟩ =
      (.ok (), ⟨some ⟨emptyBook, Table.empty⟩, true⟩) := by
  rfl

/-- An empty store is filled with a synthetic book, whatever the seed is. -/
theorem exists_fill (htoday : today.HasRoom) {count : Nat} (hcount : count < Bound.int64)
    (seed : Nat) :
    ∃ b, (fill count seed today : Act Store Made).exec Store.new =
        (.ok b.made, ⟨some ⟨b, Table.empty⟩, false⟩) ∧ b.IsSynthetic count today := by
  have hempty : emptyBook.IsSynthetic 0 today := by
    refine ⟨rfl, rfl, fun id => iff_of_false Bool.false_ne_true ?_, fun id l hl => by cases hl⟩
    omega
  obtain ⟨b, hexec, hb⟩ :=
    @exists_insertLoans today Table.empty true htoday count emptyBook 0 hempty (.ofSeed seed)
  rw [Nat.zero_add] at hb
  refine ⟨b, Store.exec_atomically_ok ?_, hb⟩
  refine (Act.exec_bind_ok exec_insertMissing).trans ?_
  rw [numbered, if_pos hcount]
  exact hexec

end Synthetic

end LoanArrears
