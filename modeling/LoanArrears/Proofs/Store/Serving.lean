-- SUMMARY: Stores that serve their tables or fail: an access does what it does on a plain store of the tables, or it leaves them; plain stores and stores under a plan of faults are such.
import LoanArrears.Proofs.Store.Keeping

/-!
# Stores that serve their tables

A store `ServesTables` if each access to its tables as a whole, to the candidates and to the
arrears, does what it does on a plain store of the same tables, or fails and changes nothing. The
reads of single loans only have to leave the tables alone. Such a store keeps its arrears table in
the sense of `KeepsTable`, and its book stays as it is.
-/

namespace LoanArrears

namespace Act

/-- The act does what the other one does on a plain store of the same tables, or it fails and
    leaves them. -/
def ServesOrFails (tables : σ → Tables) (a : Act σ α) (a' : Act Store α) : Prop :=
  ∀ s, match a.exec s with
    | (.ok v, s') => a'.exec ⟨some (tables s), false⟩ = (.ok v, ⟨some (tables s'), false⟩)
    | (.error _, s') => tables s' = tables s

namespace ServesOrFails

variable {tables : σ → Tables} {a' : Act Store α}

theorem bind_keeps {a : Act σ Unit} {f : Unit → Act σ α} (ha : a.Keeps tables)
    (hf : (f ()).ServesOrFails tables a') : (a >>= f).ServesOrFails tables a' := by
  intro s
  have hkept := ha s
  rcases hexec : a.exec s with ⟨_ | u, t⟩
  · rw [hexec] at hkept
    rw [exec_bind_error hexec]
    exact hkept
  · rw [hexec] at hkept
    rw [exec_bind_ok hexec, ← hkept]
    exact hf t

theorem bind_lift {x : Except Fault β} {f : β → Act σ α} {f' : β → Act Store α}
    (hf : ∀ v, (f v).ServesOrFails tables (f' v)) :
    (liftM x >>= f).ServesOrFails tables (liftM x >>= f') := by
  intro s
  cases x with
  | error e => rfl
  | ok v => exact hf v s

theorem doesAllOrNone {a : Act σ Unit} {a' : Act Store Unit} {ws : List ArrearsWrite}
    (h : a.ServesOrFails tables a') (h' : a'.DoesAllOrNone Store.arrears ws) :
    a.DoesAllOrNone (fun s => (tables s).arrears) ws := by
  intro s
  have hserves := h s
  rcases hexec : a.exec s with ⟨f | u, s'⟩
  · rw [hexec] at hserves
    exact congrArg Tables.arrears hserves
  · rw [hexec] at hserves
    have hall := h' ⟨some (tables s), false⟩
    rw [hserves] at hall
    exact hall

theorem keeps_book {a : Act σ α} (h : a.ServesOrFails tables a')
    (h' : a'.Keeps fun s => s.tables.map (·.book)) : a.Keeps fun s => (tables s).book := by
  intro s
  have hserves := h s
  rcases hexec : a.exec s with ⟨f | v, s'⟩
  · rw [hexec] at hserves
    exact congrArg Tables.book hserves
  · rw [hexec] at hserves
    have hkept := h' ⟨some (tables s), false⟩
    rw [hserves] at hkept
    exact Option.some.inj hkept

end ServesOrFails

end Act

/-- Accesses to the tables as a whole serve or fail, and all others leave the tables. -/
structure ServesTables [BookAccess σ] [ArrearsAccess σ] [Connections σ] (tables : σ → Tables) :
    Prop extends ReadsKeep tables where
  connect : (Connections.connect : Act σ Unit).Keeps tables
  candidates (after : LoanId) (pageSize : Nat) (today : Date) :
    (BookAccess.candidates after pageSize today : Act σ (List LoanId)).ServesOrFails tables
      (BookAccess.candidates after pageSize today)
  reset : (ArrearsAccess.reset : Act σ Nat).ServesOrFails tables ArrearsAccess.reset
  bulkInsert (today : Date) :
    (ArrearsAccess.bulkInsert today : Act σ Nat).ServesOrFails tables
      (ArrearsAccess.bulkInsert today)
  write (w : ArrearsWrite) :
    (ArrearsAccess.write w : Act σ Unit).ServesOrFails tables (ArrearsAccess.write w)
  writeBatch (ws : List ArrearsWrite) :
    (ArrearsAccess.writeBatch ws : Act σ Unit).ServesOrFails tables (ArrearsAccess.writeBatch ws)

/-! ## Stores of tables -/

namespace Store

/-- The tables of the store; empty ones before the migration. -/
def allTables (s : Store) : Tables :=
  s.tables.getD Tables.empty

theorem serves_statement (changes : Bool) (table : String)
    (f : Tables → Except Error (α × Tables)) :
    (statement changes (update table f) : Act Store α).ServesOrFails allTables
      (statement changes (update table f)) := by
  intro s
  rw [exec_statement, exec_statement]
  rcases s with ⟨_ | tables, tx⟩
  · rfl
  · simp only [update, Act.exec_ofExec, allTables, Option.getD_some]
    cases f tables <;> rfl

theorem serves_write (w : ArrearsWrite) :
    (write w : Act Store Unit).ServesOrFails allTables (write w) := by
  cases w with
  | upsert a => exact .bind_lift fun entry => serves_statement true _ _
  | delete loan => exact serves_statement true _ _

theorem serves_writeBatch (ws : List ArrearsWrite) :
    (writeBatch ws : Act Store Unit).ServesOrFails allTables (writeBatch ws) := by
  rintro ⟨_ | ⟨b, t⟩, _ | _⟩
  · cases ws with
    | nil => rfl
    | cons w ws =>
      obtain ⟨f, hf⟩ := exists_exec_write_unmigrated w true
      have hfails : ((w :: ws).forM write : Act Store Unit).exec ⟨none, true⟩ =
          (.error f, ⟨none, true⟩) := Act.exec_bind_error hf
      rw [writeBatch, exec_atomically_error (congrArg Prod.fst hfails)]
  · rfl
  · rcases ArrearsWrite.accepted_or_refused ws with hall | hrefused
    · rw [exec_writeBatch_ok hall]
      exact exec_writeBatch_ok hall
    · obtain ⟨-, -, f, -, hfails⟩ := @exec_writeBatch_error b t ws hrefused
      rw [hfails]
  · rfl

theorem servesTables : ServesTables allTables where
  toReadsKeep := readsKeep allTables
  connect _ := rfl
  candidates after pageSize today := serves_statement false Names.loan
    fun t => (·, t) <$> .ok (t.book.candidates after pageSize today)
  reset := serves_statement true _ _
  bulkInsert _ := serves_statement true _ _
  write := serves_write
  writeBatch := serves_writeBatch

/-! The accesses to the arrears keep the book. -/

theorem keeps_book_write (w : ArrearsWrite) :
    (write w : Act Store Unit).Keeps fun s => s.tables.map (·.book) := by
  rintro ⟨_ | ⟨b, t⟩, tx⟩
  · obtain ⟨f, hf⟩ := exists_exec_write_unmigrated w tx
    rw [hf]
  · rw [exec_write]
    cases w.entryLeft <;> rfl

theorem keeps_book_writeBatch (ws : List ArrearsWrite) :
    (writeBatch ws : Act Store Unit).Keeps fun s => s.tables.map (·.book) := by
  have hall : (ws.forM write : Act Store Unit).Keeps fun s => s.tables.map (·.book) := by
    induction ws with
    | nil => exact .pure ()
    | cons w ws ih => exact .bind (keeps_book_write w) fun _ => ih
  rintro ⟨tables, _ | _⟩
  · rw [writeBatch, exec_atomically]
    have hkept := hall ⟨tables, true⟩
    rcases hexec : (ws.forM write : Act Store Unit).exec ⟨tables, true⟩ with ⟨_ | u, s'⟩
    · rfl
    · rw [hexec] at hkept
      exact hkept
  · rfl

end Store

namespace ServesTables

variable [BookAccess σ] [ArrearsAccess σ] [Connections σ] {tables : σ → Tables}

theorem keepsTable (h : ServesTables tables) : KeepsTable fun s => (tables s).arrears where
  terms loan s := congrArg Tables.arrears (h.terms loan s)
  plannedInstallments loan s := congrArg Tables.arrears (h.plannedInstallments loan s)
  liveInstallments loan s := congrArg Tables.arrears (h.liveInstallments loan s)
  consumption loan s := congrArg Tables.arrears (h.consumption loan s)
  write w := (h.write w).doesAllOrNone (Store.keepsTable.write w)
  writeBatch ws := (h.writeBatch ws).doesAllOrNone (Store.keepsTable.writeBatch ws)

/-- A fetch that succeeds answers the candidates of the book. -/
theorem exec_candidates (h : ServesTables tables) {after : LoanId} {pageSize : Nat} {today : Date}
    {ids : List LoanId} {s s' : σ}
    (hexec : (BookAccess.candidates after pageSize today : Act σ (List LoanId)).exec s =
      (.ok ids, s')) :
    ids = (tables s).book.candidates after pageSize today ∧ tables s' = tables s := by
  have hserves := h.candidates after pageSize today s
  rw [hexec] at hserves
  have hplain : Store.HasBook ⟨some (tables s), false⟩ (tables s).book := ⟨(tables s).arrears, rfl⟩
  have hreads := (hplain.reads_candidates after pageSize today).symm.trans hserves
  obtain ⟨hids, htables⟩ := Prod.mk.inj hreads
  exact ⟨(Except.ok.inj hids).symm, (Option.some.inj (congrArg Store.tables htables)).symm⟩

theorem readsKeep_book (h : ServesTables tables) : ReadsKeep fun s => (tables s).book where
  terms loan s := congrArg Tables.book (h.terms loan s)
  plannedInstallments loan s := congrArg Tables.book (h.plannedInstallments loan s)
  liveInstallments loan s := congrArg Tables.book (h.liveInstallments loan s)
  consumption loan s := congrArg Tables.book (h.consumption loan s)

end ServesTables

/-! ## Stores under a plan of faults -/

namespace Faulty

variable {tables : σ → Tables}

theorem servesOrFails_onInner {a : Act σ α} {a' : Act Store α} (h : a.ServesOrFails tables a') :
    (onInner a : Act (Faulty σ) α).ServesOrFails (tables ·.inner) a' := by
  intro s
  have hinner := h s.inner
  rw [onInner, Act.exec_zoom]
  rcases hexec : a.exec s.inner with ⟨_ | v, t⟩
  · rw [hexec] at hinner
    exact hinner
  · rw [hexec] at hinner
    exact hinner

/-- A plan of faults leaves it to the store that it is put on to serve its tables. -/
theorem servesTables [BookAccess σ] [ArrearsAccess σ] [Connections σ] (h : ServesTables tables) :
    ServesTables fun s : Faulty σ => tables s.inner where
  toReadsKeep := readsKeep h.toReadsKeep
  connect := .bind (keeps_meet _ _) fun _ => keeps_onInner h.connect
  candidates after pageSize today :=
    .bind_keeps (keeps_meet _ _) (servesOrFails_onInner (h.candidates after pageSize today))
  reset := .bind_keeps (keeps_meet _ _) (servesOrFails_onInner h.reset)
  bulkInsert today := .bind_keeps (keeps_meet _ _) (servesOrFails_onInner (h.bulkInsert today))
  write w := .bind_keeps (keeps_meet _ _) (servesOrFails_onInner (h.write w))
  writeBatch ws :=
    .bind_keeps (keeps_modify fun _ => rfl)
      (.bind_keeps (keeps_forM_meet _ ws) (servesOrFails_onInner (h.writeBatch ws)))

end Faulty

end LoanArrears
