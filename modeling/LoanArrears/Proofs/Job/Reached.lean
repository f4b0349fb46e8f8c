-- SUMMARY: The stores that are reached by writes of the loan module, calls of the engine and operations with events: their rows conserve the total, and can be read unless a bulk insert left the range.
import LoanArrears.Proofs.Job.Isolation
import LoanArrears.Proofs.Job.Upholding
import LoanArrears.Proofs.Store.Written

/-!
# Reached stores

A store is reached from another one by the loan module, by calls of the engine, which may meet
faults and may fail or crash, and by operations whose events are delivered to the listener. From a
new store on, its tables are written (`Store.IsWritten`). So whatever happened before, the rows
that can be read conserve their total, and rows are read unless the buckets of an entry add up out
of range. Only the bulk insert, which adds them up with the arithmetic of the table, leaves such an
entry; a write refuses it.
-/

namespace LoanArrears

/-! ## Calls -/

/-- A call of the engine. -/
inductive EngineCall where
  | reset
  | bulkInsert (today : Date)
  | write (w : ArrearsWrite)
  | writeBatch (ws : List ArrearsWrite)
  | recompute (loan : LoanId) (today : Date) (mode : AgingMode)
  | job (config : JobParameters) (today : Date) (phase : Phase)

namespace EngineCall

variable [BookAccess σ] [ArrearsAccess σ] [Connections σ]

def act : EngineCall → Act σ Unit
  | .reset => discard ArrearsAccess.reset
  | .bulkInsert today => discard (ArrearsAccess.bulkInsert today)
  | .write w => ArrearsAccess.write w
  | .writeBatch ws => ArrearsAccess.writeBatch ws
  | .recompute loan today mode => discard (LoanArrears.recompute loan today mode)
  | .job config today phase =>
    discard (Job.run.zoom (Job.mk config today phase ·) fun job _ => job.store)

theorem upholds {I : σ → Prop} (h : UpholdsAccess I) (c : EngineCall) :
    (c.act : Act σ Unit).Upholds I := by
  cases c with
  | reset => exact h.reset.map _
  | bulkInsert today => exact (h.bulkInsert today).map _
  | write w => exact h.write w
  | writeBatch ws => exact h.writeBatch ws
  | recompute loan today mode => exact (h.recompute loan today mode).map _
  | job config today phase =>
    have hrun : (Job.run.zoom (Job.mk config today phase ·) fun job _ => job.store :
        Act σ RunReport).Upholds I :=
      fun s hs => Job.upholds_run h ⟨config, today, phase, s⟩ hs
    exact hrun.map _

end EngineCall

/-! ## Reached stores -/

/-- The second store is reached from the first one. An operation whose events are delivered may do
    in its transaction whatever else leads from one store to another. -/
inductive Reaches : Store → Store → Prop where
  | refl (s : Store) : Reaches s s
  | loanWrite {s t : Store} (before : Reaches s t) (w : LoanWrite) (inRange : w.InRange) :
    Reaches s (w.act.exec t).2
  | call {s t : Store} (before : Reaches s t) (c : EngineCall) : Reaches s (c.act.exec t).2
  /-- A call that meets the faults of a plan. -/
  | faultyCall {s t : Store} (before : Reaches s t) (c : EngineCall) (plan : FaultPlan)
    (withoutPlanned : List LoanId) :
    Reaches s (c.act.exec (Faulty.ofStore t plan withoutPlanned)).2.inner
  | perform {α : Type} {s t : Store} (before : Reaches s t) (today : Store → Date)
    (operation : Act Store (α × List LoanEvent))
    (within : Reaches { t with inTransaction := true }
      (operation.exec { t with inTransaction := true }).2) :
    Reaches s (((Subscriptions.standard today).perform operation).exec t).2

namespace Reaches

variable {s t : Store}

/-- What is reached from written tables is written. -/
theorem isWritten (h : Reaches s t) (hs : s.IsWritten) : t.IsWritten := by
  induction h with
  | refl s => exact hs
  | loanWrite before w inRange ih => exact Store.upholds_act inRange _ (ih hs)
  | call before c ih => exact c.upholds Store.upholdsAccess _ (ih hs)
  | faultyCall before c plan withoutPlanned ih =>
    exact c.upholds (Faulty.upholdsAccess Store.upholdsAccess) (Faulty.ofStore _ _ _) (ih hs)
  | perform before today operation within ih ihwithin =>
    -- The operation starts with the tables that the transaction found, which are written.
    exact Store.isWritten_perform (ih hs) (ihwithin (ih hs))

theorem after (h : Reaches s t) {ws : List LoanWrite} (hws : ∀ w ∈ ws, w.InRange) :
    Reaches s (t.after ws) := by
  induction ws generalizing t with
  | nil => exact h
  | cons w ws ih =>
    obtain ⟨hw, hrest⟩ := List.forall_mem_cons.1 hws
    exact ih (h.loanWrite w hw) hrest

end Reaches

/-! ## Rows -/

/-- Reading all rows leaves the store, and succeeds as the table is read. -/
theorem Store.exec_rows_eq_ok_iff {b : Book} {t : ArrearsTable} {tx : Bool} {rs : List AgingRow}
    {s' : Store} :
    (rows : Act Store (List AgingRow)).exec ⟨some ⟨b, t⟩, tx⟩ = (.ok rs, s') ↔
      ArrearsTable.rows t = .ok rs ∧ s' = ⟨some ⟨b, t⟩, tx⟩ := by
  have hexec : (rows : Act Store (List AgingRow)).exec ⟨some ⟨b, t⟩, tx⟩ =
      match ArrearsTable.rows t with
      | .ok rs => (.ok rs, ⟨some ⟨b, t⟩, tx⟩)
      | .error e => (.error (.error e), ⟨some ⟨b, t⟩, tx⟩) := by
    refine (exec_statement _ _ _).trans ?_
    rw [query, update, Act.exec_ofExec]
    dsimp only
    cases ArrearsTable.rows t <;> rfl
  rw [hexec]
  cases ArrearsTable.rows t <;> simp [eq_comm]

/-- In every store that is reached from a new one, each entry has a positive principal, no negative
    bucket, and the total of its buckets, unless it is a row of a bulk insert whose buckets add up
    out of range. The rows can be read exactly when there is no such entry, and then there is one
    for each entry, in ascending order of the loans, and it conserves its total. -/
theorem reached_rows_conserved_iff {s : Store} (h : Reaches .new s) :
    ∃ b t, s.tables = some ⟨b, t⟩ ∧
      (∀ id e, t.find? id = some e →
        0 < e.overdue.principal.val ∧ (∀ i, 0 ≤ (e.overdue.get i).val) ∧
        e.total.StandsFor e.overdue.exactSum ∧
        (Bound.int64 ≤ e.overdue.exactSum →
          ∃ b' today, Book.IsBuilt b' ∧ b'.bulkRow? today id = some e)) ∧
      ((∃ rows, (Store.rows : Act Store (List AgingRow)).exec s = (.ok rows, s)) ↔
        ∀ id e, t.find? id = some e → e.overdue.exactSum < Bound.int64) ∧
      ∀ rows s', (Store.rows : Act Store (List AgingRow)).exec s = (.ok rows, s') →
        (rows.map (·.loan)).Pairwise (· < ·) ∧
        (∀ id, id ∈ rows.map (·.loan) ↔ ∃ e, t.find? id = some e) ∧
        ∀ r ∈ rows, r.IsConserved := by
  obtain ⟨⟨b, t⟩, htables, hwritten⟩ := h.isWritten Store.isWritten_new
  obtain ⟨_, tx⟩ := s
  cases htables
  have hkept : ∀ id e, t.find? id = some e → e.IsKept :=
    fun id e he => (hwritten.entries id e he).isKept
  refine ⟨b, t, rfl, fun id e he => ?_, ?_, fun rows s' hrows => ?_⟩
  · have hentry := hkept id e he
    obtain ⟨hprincipal, hnonneg, -⟩ := ArrearsEntry.check_eq_ok_iff.1 hentry.check
    refine ⟨hprincipal, hnonneg, hentry.standsFor_total, fun hlarge => ?_⟩
    apply (hwritten.entries id e he).exists_bulkRow?_of_int64_le
    exact Int.not_lt.1 fun hlt => Int.not_lt.2 hlarge (hentry.standsFor_total.lt_iff.1 hlt)
  · rw [← ArrearsTable.exists_rows_iff hkept]
    exact exists_congr fun rows => Store.exec_rows_eq_ok_iff.trans (and_iff_left rfl)
  · exact ArrearsTable.rows_of_eq_ok hkept (Store.exec_rows_eq_ok_iff.1 hrows).1

namespace Sample

/-- What the bulk insert makes of loan 1. -/
def liveEntry : ArrearsEntry :=
  ⟨exactly hundredCents, .exact hundredCents.principal, dueDate⟩

def insertedStore : Store :=
  ⟨some ⟨book 2, Table.empty.put 1 liveEntry⟩, false⟩

theorem reaches_insertedStore : Reaches .new insertedStore := by
  have hinsert : ((EngineCall.bulkInsert today).act.exec (Store.new.after (writes 2))).2 =
      insertedStore := rfl
  rw [← hinsert]
  exact ((Reaches.refl .new).after (inRange_writes (by decide))).call _

end Sample

/-- The row that the bulk insert leaves of loan 1 conserves its total. -/
theorem reached_rows_conserved_of_sample :
    ∃ row, Reaches .new Sample.insertedStore ∧
      (Store.rows : Act Store (List AgingRow)).exec Sample.insertedStore =
        (.ok [row], Sample.insertedStore) ∧
      row.loan = 1 ∧ row.IsConserved := by
  obtain ⟨b, t, -, -, -, hrows⟩ := reached_rows_conserved_iff Sample.reaches_insertedStore
  have hexec : (Store.rows : Act Store (List AgingRow)).exec Sample.insertedStore =
      (.ok [⟨1, Sample.hundred, .ofCents Sample.hundredCents.principal, Sample.dueDate⟩],
        Sample.insertedStore) := rfl
  obtain ⟨-, -, hconserved⟩ := hrows _ _ hexec
  exact ⟨_, Sample.reaches_insertedStore, hexec, rfl, hconserved _ List.mem_cons_self⟩

namespace Sample

/-- Each bucket fits in its column, and their sum does not. -/
def beyondRange : Amounts :=
  Amounts.ofCents { largestCents with interest := ⟨1, by decide, by decide⟩ }

def beyondRangeWrites : List LoanWrite :=
  [.insertProduct ⟨1, "live", false, 0⟩, .insertLoan ⟨1, 1, .active, none, .zero⟩,
    .insertSchedule (.unpaid 1 1 dueDate beyondRange)]

theorem inRange_beyondRangeWrites : ∀ w ∈ beyondRangeWrites, w.InRange := by
  simp [beyondRangeWrites, LoanWrite.InRange, IsId, Bound.int64, Bound.nat32, LiveRow.unpaid]

end Sample

/-- After the bulk insert of a loan whose buckets add up out of range, the rows cannot be read. -/
theorem reached_rows_unreadable_of_sample :
    ∃ s, Reaches .new s ∧ (Store.rows : Act Store (List AgingRow)).exec s =
      (.error (.error (.database (.columnType 5 ArrearsEntry.totalColumn "Real"))), s) :=
  ⟨_, ((Reaches.refl .new).after Sample.inRange_beyondRangeWrites).call
    (.bulkInsert Sample.today), rfl⟩

end LoanArrears
