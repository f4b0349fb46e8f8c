-- SUMMARY: Every entry of a store's table was written or inserted in bulk: an invariant of all accesses, and of the loan module.
import LoanArrears.Proofs.Book.Conserving
import LoanArrears.Proofs.Store.Upholding
import LoanArrears.Proofs.Subscription.Coherence

/-!
# Written tables

The entries of an arrears table come from writes that were accepted and from bulk inserts over
built books, and there is no other way for one to get in. `Store.IsWritten` says so of a store.
Every access to a store upholds it, alone and in a transaction, and so do the loan module and the
listeners to its events.
-/

namespace LoanArrears

/-- The book is built, and every entry of the table was written or inserted. -/
structure Tables.AreWritten (tables : Tables) : Prop where
  built : tables.book.IsBuilt
  entries (id : LoanId) (e : ArrearsEntry) (h : tables.arrears.find? id = some e) : e.IsWritten id

namespace Tables.AreWritten

variable {b : Book} {t : ArrearsTable}

/-- Without its entries a table is written. -/
theorem of_empty (hb : b.IsBuilt) : AreWritten ⟨b, Table.empty⟩ where
  built := hb
  entries id e h := by cases h

theorem set (h : AreWritten ⟨b, t⟩) {w : ArrearsWrite} {left : Option ArrearsEntry}
    (hleft : w.entryLeft = .ok left) : AreWritten ⟨b, t.set w.loan left⟩ where
  built := h.built
  entries id e he := by
    have hfind : (t.set w.loan left).find? id = some e := he
    rw [ArrearsTable.find?_set] at hfind
    split at hfind
    · subst hfind
      exact .write w hleft
    · exact h.entries id e hfind

theorem bulkInsert (h : AreWritten ⟨b, t⟩) {today : Date} {n : Nat} {t' : ArrearsTable}
    (hinsert : b.bulkInsert today t = .ok (n, t')) : AreWritten ⟨b, t'⟩ where
  built := h.built
  entries id e he := by
    rcases Book.find?_of_foldlM_bulkStep hinsert he with hold | ⟨l, hl, hentry⟩
    · exact h.entries id e hold
    · refine .bulk b today h.built ?_
      have hfind : b.loans.find? id = some l := Table.find?_eq_some_iff.2 hl
      exact Book.bulkRow?_of_bulkEntryOf hfind hentry

theorem loanWrite (h : AreWritten ⟨b, t⟩) {w : LoanWrite} (hw : w.InRange) {b' : Book}
    (happly : w.apply b = .ok b') : AreWritten ⟨b', t⟩ where
  built := by
    have hafter : b.after [w] = b' := by
      show (w.apply b).toOption.getD b = b'
      rw [happly]
      rfl
    have hbuilt : (b.after [w]).IsBuilt := h.built.after (List.forall_mem_singleton.2 hw)
    exact hafter ▸ hbuilt
  entries := h.entries

end Tables.AreWritten

namespace Store

/-- The store is migrated, and its tables are written. -/
def IsWritten (s : Store) : Prop :=
  ∃ tables, s.tables = some tables ∧ tables.AreWritten

theorem isWritten_new : new.IsWritten :=
  ⟨Tables.empty, rfl, .of_empty ⟨[], List.forall_mem_nil _, Table.empty, rfl⟩⟩

/-! ## Statements -/

theorem upholds_queryBook (table : String) (f : Book → Except Error α) :
    (reading (queryBook table f) : Act Store α).Upholds IsWritten :=
  (keeps_queryBook id table f).upholds IsWritten

/-- A statement upholds what its successful answers leave. -/
theorem upholds_changing {table : String} {f : Tables → Except Error (α × Tables)}
    (hf : ∀ ts v ts', ts.AreWritten → f ts = .ok (v, ts') → ts'.AreWritten) :
    (changing (update table f) : Act Store α).Upholds IsWritten := by
  rintro s ⟨ts, hts, hwritten⟩
  rw [exec_changing, update, Act.exec_ofExec, hts]
  dsimp only
  cases hresult : f ts with
  | error e => exact ⟨ts, hts, hwritten⟩
  | ok r => exact ⟨r.2, rfl, hf ts r.1 r.2 hwritten hresult⟩

theorem upholds_write (w : ArrearsWrite) : (write w : Act Store Unit).Upholds IsWritten := by
  rintro ⟨_, tx⟩ ⟨⟨b, t⟩, rfl, hwritten⟩
  rw [exec_write]
  cases hleft : w.entryLeft with
  | error f => exact ⟨⟨b, t⟩, rfl, hwritten⟩
  | ok e => exact ⟨_, rfl, hwritten.set hleft⟩

theorem upholds_reset : (reset : Act Store Nat).Upholds IsWritten := by
  refine upholds_changing fun ts v ts' hwritten hreset => ?_
  cases hreset
  exact .of_empty hwritten.built

theorem upholds_bulkInsert (today : Date) :
    (bulkInsert today : Act Store Nat).Upholds IsWritten := by
  refine upholds_changing fun ts v ts' hwritten hresult => ?_
  obtain ⟨⟨n, t⟩, hinsert, hresult⟩ := exists_of_bind_eq_ok hresult
  cases hresult
  exact hwritten.bulkInsert hinsert

theorem upholds_act {w : LoanWrite} (hw : w.InRange) : w.act.Upholds IsWritten := by
  rintro ⟨_, tx⟩ ⟨⟨b, t⟩, rfl, hwritten⟩
  rw [exec_act]
  cases happly : w.apply b with
  | error e => exact ⟨⟨b, t⟩, rfl, hwritten⟩
  | ok b' => exact ⟨⟨b', t⟩, rfl, hwritten.loanWrite hw happly⟩

/-! ## Transactions -/

/-- Of what happens in a transaction either all is kept or nothing. -/
theorem isWritten_atomically {a : Act Store α} {s : Store} (hs : s.IsWritten)
    (ha : (a.exec { s with inTransaction := true }).2.IsWritten) :
    ((atomically a).exec s).2.IsWritten := by
  obtain ⟨tables, _ | _⟩ := s
  · rw [exec_atomically]
    rcases hexec : a.exec ⟨tables, true⟩ with ⟨_ | v, s'⟩
    · exact hs
    · rw [hexec] at ha
      exact ha
  · exact hs

theorem upholds_atomically {a : Act Store α} (ha : a.Upholds IsWritten) :
    (atomically a).Upholds IsWritten :=
  fun s hs => isWritten_atomically hs (ha { s with inTransaction := true } hs)

/-! ## Accesses -/

theorem upholdsAccess : UpholdsAccess IsWritten where
  connect := .pure ()
  candidates _ _ _ := upholds_queryBook _ _
  terms _ := upholds_queryBook _ _
  plannedInstallments _ := upholds_queryBook _ _
  liveInstallments _ := upholds_queryBook _ _
  consumption _ := upholds_queryBook _ _
  reset := upholds_reset
  bulkInsert := upholds_bulkInsert
  write := upholds_write
  writeBatch _ := upholds_atomically (.forM fun w _ => upholds_write w)

end Store

/-! ## Listeners -/

section Listeners

variable [BookAccess σ] [ArrearsAccess σ] [Connections σ] {I : σ → Prop} {today : σ → Date}

/-- Delivering an event upholds what the accesses uphold: its listener recomputes a loan, or
    there is none. -/
theorem Subscriptions.upholds_deliver (h : UpholdsAccess I) (e : LoanEvent) :
    ((standard today).deliver e : Act σ Nat).Upholds I := by
  have hlistener : ∀ l ∈ (standard today).listeners e.kind, (l.onEvent e).Upholds I := by
    rw [listeners_standard]
    split
    · exact List.forall_mem_singleton.2
        (.bind .get fun s => .bind (h.recompute e.loan (today s) _) fun _ => .pure ())
    · exact List.forall_mem_nil _
  exact .bind (.forM hlistener) fun _ => .pure _

end Listeners

/-- A call upholds that the tables are written if its operation left them so. -/
theorem Store.isWritten_perform {today : Store → Date}
    {operation : Act Store (α × List LoanEvent)} {s : Store} (hs : s.IsWritten)
    (hoperation : (operation.exec { s with inTransaction := true }).2.IsWritten) :
    (((Subscriptions.standard today).perform operation).exec s).2.IsWritten := by
  refine isWritten_atomically hs ?_
  rcases hexec : operation.exec { s with inTransaction := true } with ⟨_ | ⟨answer, events⟩, s'⟩
  · rw [hexec] at hoperation
    rw [Act.exec_bind_error hexec]
    exact hoperation
  · rw [hexec] at hoperation
    rw [Act.exec_bind_ok hexec]
    have hdeliver : (events.forM fun e => discard ((Subscriptions.standard today).deliver e) :
        Act Store Unit).Upholds IsWritten :=
      .forM fun e _ => (Subscriptions.upholds_deliver upholdsAccess e).map _
    exact hdeliver.bind (fun _ => .pure answer) s' hoperation

end LoanArrears
