-- SUMMARY: Stores that may fail at any access but keep their arrears table: reads leave it, and what fails to write it does nothing.
import LoanArrears.Proofs.Store.Mirroring
import LoanArrears.Proofs.Store.Writing
import LoanArrears.Store.Faults

/-!
# Stores that keep their table

A store can end any access with any fault. What it keeps to is `KeepsTable`: reads leave the
arrears table as it is, and a write or a batch is done as a whole or not at all. Every store of
tables does, and so does one that a plan of faults is put on. Attempts that fail leave the table,
so a call that is retried changes it by its last attempt at most.
-/

namespace LoanArrears

/-! ## Acts and tables -/

namespace Act

variable {table : σ → ArrearsTable}

/-- However it ends, the act leaves the table as it is. -/
def Leaves (table : σ → ArrearsTable) (a : Act σ α) : Prop :=
  ∀ s, table (a.exec s).2 = table s

/-- The act succeeds only by doing all of the writes, and leaves the table if it fails. -/
def DoesAllOrNone (table : σ → ArrearsTable) (a : Act σ Unit) (ws : List ArrearsWrite) : Prop :=
  ∀ s, match a.exec s with
    | (.ok _, s') => (∀ w ∈ ws, ∃ e, w.entryLeft = .ok e) ∧ table s' = (table s).applyAll ws
    | (.error _, s') => table s' = table s

theorem DoesAllOrNone.bind {a : Act σ Unit} {f : Unit → Act σ Unit} {ws : List ArrearsWrite}
    (ha : a.Leaves table) (hf : (f ()).DoesAllOrNone table ws) :
    (a >>= f).DoesAllOrNone table ws := by
  intro s
  have hleaves := ha s
  rcases hexec : a.exec s with ⟨_ | u, t⟩
  · rw [hexec] at hleaves
    rw [exec_bind_error hexec]
    exact hleaves
  · rw [hexec] at hleaves
    rw [exec_bind_ok hexec, ← hleaves]
    exact hf t

end Act

/-- Reads of the store leave its table; writes and batches do all or nothing. -/
structure KeepsTable [BookAccess σ] [ArrearsAccess σ] (table : σ → ArrearsTable) : Prop where
  terms (loan : LoanId) : (BookAccess.terms loan : Act σ AgingTerms).Leaves table
  plannedInstallments (loan : LoanId) :
    (BookAccess.plannedInstallments loan : Act σ (List PlannedInstallment)).Leaves table
  liveInstallments (loan : LoanId) :
    (BookAccess.liveInstallments loan : Act σ (List LiveInstallment)).Leaves table
  consumption (loan : LoanId) : (BookAccess.consumption loan : Act σ Consumption).Leaves table
  write (w : ArrearsWrite) : (ArrearsAccess.write w : Act σ Unit).DoesAllOrNone table [w]
  writeBatch (ws : List ArrearsWrite) :
    (ArrearsAccess.writeBatch ws : Act σ Unit).DoesAllOrNone table ws

/-! ## Computing a write -/

namespace KeepsTable

variable [BookAccess σ] [ArrearsAccess σ] {table : σ → ArrearsTable}

theorem readsKeep (h : KeepsTable table) : ReadsKeep table where
  terms := h.terms
  plannedInstallments := h.plannedInstallments
  liveInstallments := h.liveInstallments
  consumption := h.consumption

theorem leaves_computeWrite (h : KeepsTable table) (loan : LoanId) (today : Date)
    (mode : AgingMode) : (computeWrite loan today mode : Act σ ArrearsWrite).Leaves table :=
  h.readsKeep.computeWrite loan today mode

end KeepsTable

/-- Whatever the store answers, the write that is computed is one of the loan. -/
theorem loan_of_exec_computeWrite [BookAccess σ] {loan : LoanId} {today : Date} {mode : AgingMode}
    {w : ArrearsWrite} {s s' : σ}
    (h : (computeWrite loan today mode : Act σ ArrearsWrite).exec s = (.ok w, s')) :
    w.loan = loan := by
  have hlive {terms : AgingTerms} {s : σ}
      (h : (do return .ofTotals loan (← liveArrears terms today) : Act σ ArrearsWrite).exec s =
        (.ok w, s')) : w.loan = loan := by
    obtain ⟨totals, s₁, -, h⟩ := Act.exists_of_exec_bind_ok h
    cases h
    exact ArrearsWrite.loan_ofTotals loan totals
  unfold computeWrite at h
  obtain ⟨terms, s₁, -, h⟩ := Act.exists_of_exec_bind_ok h
  split at h
  · cases h
    rfl
  dsimp only at h
  split at h
  · obtain ⟨replayed, s₂, -, h⟩ := Act.exists_of_exec_bind_ok h
    cases replayed with
    | some totals =>
      cases h
      exact ArrearsWrite.loan_ofTotals loan totals
    | none => exact hlive h
  · exact hlive h

/-! ## Retries -/

/-- How retries of an act can end: the attempts before one that succeeds leave the table, and so
    do all of them if none does; only a crash ends the retries themselves. -/
def RetriesEnd (table : σ → ArrearsTable) (act : Act σ α) (s : σ) :
    Except Fault (RetryResult α) × σ → Prop
  | (.ok ⟨.ok v, _, _⟩, s') => ∃ s₁, table s₁ = table s ∧ act.exec s₁ = (.ok v, s')
  | (.ok ⟨.error _, _, _⟩, s') => table s' = table s
  | (.error f, _) => ∃ c, f = .crash c

section Retry

variable {table : σ → ArrearsTable} {act : Act σ α}

theorem RetriesEnd.of_table_eq {s s₁ : σ} (h : table s₁ = table s) :
    ∀ {r}, RetriesEnd table act s₁ r → RetriesEnd table act s r
  | (.ok ⟨.ok _, _, _⟩, _), ⟨s₂, hs₂, hexec⟩ => ⟨s₂, hs₂.trans h, hexec⟩
  | (.ok ⟨.error _, _, _⟩, _), hs' => Eq.trans hs' h
  | (.error _, _), hcrash => hcrash

theorem retriesEnd_retryFrom (hact : ∀ s f s', act.exec s = (.error f, s') → table s' = table s)
    (policy : RetryPolicy) (left : Nat) (delays : List Nat) (stream : JitterStream) (s : σ) :
    RetriesEnd table act s ((retryFrom policy act delays stream left).exec s) := by
  induction left generalizing delays stream s with
  | zero =>
    rw [retryFrom]
    rcases hexec : act.exec s with ⟨(e | c) | v, s'⟩
    · rw [Act.exec_bind_ok (Act.exec_attempt_error hexec)]
      exact hact s _ s' hexec
    · rw [Act.exec_bind_error (Act.exec_attempt_crash hexec)]
      exact ⟨c, rfl⟩
    · rw [Act.exec_bind_ok (Act.exec_attempt_ok hexec)]
      exact ⟨s, rfl, hexec⟩
  | succ left ih =>
    rw [retryFrom]
    rcases hexec : act.exec s with ⟨(e | c) | v, s'⟩
    · rw [Act.exec_bind_ok (Act.exec_attempt_error hexec)]
      have hleft : table s' = table s := hact s _ s' hexec
      dsimp only
      split
      · exact .of_table_eq hleft (ih _ _ s')
      · exact hleft
    · rw [Act.exec_bind_error (Act.exec_attempt_crash hexec)]
      exact ⟨c, rfl⟩
    · rw [Act.exec_bind_ok (Act.exec_attempt_ok hexec)]
      exact ⟨s, rfl, hexec⟩

theorem retriesEnd_retry (hact : ∀ s f s', act.exec s = (.error f, s') → table s' = table s)
    (policy : RetryPolicy) (stream : JitterStream) (s : σ) :
    RetriesEnd table act s ((retry policy stream act).exec s) :=
  retriesEnd_retryFrom hact policy policy.maxRetries [] stream s

/-- How retries end, whatever the act does to the store. -/
theorem retriesEnd_anyway (act : Act σ α) (policy : RetryPolicy) (stream : JitterStream) (s : σ) :
    RetriesEnd (fun _ => Table.empty) act s ((retry policy stream act).exec s) :=
  retriesEnd_retry (fun _ _ _ _ => rfl) policy stream s

theorem exists_crash_of_retry {policy : RetryPolicy} {stream : JitterStream} {s s' : σ} {f : Fault}
    (h : (retry policy stream act).exec s = (.error f, s')) : ∃ c, f = .crash c := by
  have hends := retriesEnd_anyway act policy stream s
  rw [h] at hends
  exact hends

/-- An answer of retries is one of the act. -/
theorem exists_exec_of_retry {policy : RetryPolicy} {stream : JitterStream} {s s' : σ} {v : α}
    {r : RetryResult α} (h : (retry policy stream act).exec s = (.ok r, s'))
    (hr : r.outcome = .ok v) : ∃ s₁, act.exec s₁ = (.ok v, s') := by
  have hends := retriesEnd_anyway act policy stream s
  rw [h] at hends
  rcases r with ⟨_, _, _⟩
  cases hr
  obtain ⟨s₁, -, hexec⟩ := hends
  exact ⟨s₁, hexec⟩

/-- Retries of an act that leaves the table leave it. -/
theorem Act.Leaves.table_of_retry (hact : act.Leaves table) {policy : RetryPolicy}
    {stream : JitterStream} {s s' : σ} {r : RetryResult α}
    (h : (retry policy stream act).exec s = (.ok r, s')) : table s' = table s := by
  have hends := retriesEnd_retry (fun s _ _ hexec => hexec ▸ hact s) policy stream s
  rw [h] at hends
  rcases r with ⟨_ | v, _, _⟩
  · exact hends
  · obtain ⟨s₁, hs₁, hexec⟩ := hends
    have hleft := hact s₁
    rw [hexec] at hleft
    exact hleft.trans hs₁

/-- Retries of writes do all of them, if they succeed, or nothing. -/
theorem Act.DoesAllOrNone.table_of_retry {act : Act σ Unit} {ws : List ArrearsWrite}
    (hact : act.DoesAllOrNone table ws) {policy : RetryPolicy} {stream : JitterStream} {s s' : σ}
    {r : RetryResult Unit} (h : (retry policy stream act).exec s = (.ok r, s')) :
    match r.outcome with
    | .ok _ => (∀ w ∈ ws, ∃ e, w.entryLeft = .ok e) ∧ table s' = (table s).applyAll ws
    | .error _ => table s' = table s := by
  have hends := retriesEnd_retry (fun s _ _ hexec => by
    have hnone := hact s
    rw [hexec] at hnone
    exact hnone) policy stream s
  rw [h] at hends
  rcases r with ⟨_ | u, _, _⟩
  · exact hends
  · obtain ⟨s₁, hs₁, hexec⟩ := hends
    have hall := hact s₁
    rw [hexec, hs₁] at hall
    exact hall

end Retry

/-! ## Stores of tables -/

namespace Store

/-- The arrears of the store; none before the migration. -/
def arrears (s : Store) : ArrearsTable :=
  (s.tables.map (·.arrears)).getD Table.empty

theorem keeps_queryBook (view : Store → γ) (table : String) (f : Book → Except Error α) :
    (reading (queryBook table f) : Act Store α).Keeps view := by
  rintro ⟨_ | ⟨b, t⟩, tx⟩
  · rfl
  · have hreads := HasBook.reads_queryBook (s := ⟨some ⟨b, t⟩, tx⟩) ⟨t, rfl⟩ table f
    rw [hreads]

theorem readsKeep (view : Store → γ) : ReadsKeep view where
  terms _ := keeps_queryBook view _ _
  plannedInstallments _ := keeps_queryBook view _ _
  liveInstallments _ := keeps_queryBook view _ _
  consumption _ := keeps_queryBook view _ _

/-- Before the migration every write fails. -/
theorem exists_exec_write_unmigrated (w : ArrearsWrite) (tx : Bool) :
    ∃ f, (write w : Act Store Unit).exec ⟨none, tx⟩ = (.error f, ⟨none, tx⟩) := by
  cases w with
  | delete loan => exact ⟨_, rfl⟩
  | upsert a =>
    simp only [write]
    cases hprepare : a.prepare with
    | error f => exact ⟨f, Act.exec_bind_error (Act.Reads.lift_fault _)⟩
    | ok entry =>
      rw [Act.exec_bind_ok (Act.Reads.lift_fault _)]
      exact ⟨_, rfl⟩

theorem doesAllOrNone_write (w : ArrearsWrite) :
    (write w : Act Store Unit).DoesAllOrNone arrears [w] := by
  rintro ⟨_ | ⟨b, t⟩, tx⟩
  · obtain ⟨f, hf⟩ := exists_exec_write_unmigrated w tx
    rw [hf]
  · rw [exec_write]
    cases hentry : w.entryLeft with
    | error f => rfl
    | ok e =>
      refine ⟨List.forall_mem_singleton.2 ⟨e, hentry⟩, ?_⟩
      exact (ArrearsTable.apply_of_entryLeft hentry t).symm

/-- A sequence of writes succeeds only if all of them do. -/
theorem exists_of_forM_write {ws : List ArrearsWrite} {s s' : Store}
    (h : (ws.forM write : Act Store Unit).exec s = (.ok (), s')) :
    (∀ w ∈ ws, ∃ e, w.entryLeft = .ok e) ∧ s'.arrears = s.arrears.applyAll ws := by
  induction ws generalizing s with
  | nil =>
    cases h
    exact ⟨List.forall_mem_nil _, rfl⟩
  | cons w ws ih =>
    obtain ⟨u, s₁, hw, hrest⟩ := Act.exists_of_exec_bind_ok h
    have hone := doesAllOrNone_write w s
    rw [hw] at hone
    obtain ⟨hentries, htable⟩ := ih hrest
    refine ⟨List.forall_mem_cons.2 ⟨hone.1 w (List.mem_singleton_self w), hentries⟩, ?_⟩
    rw [htable, hone.2]
    rfl

theorem doesAllOrNone_writeBatch (ws : List ArrearsWrite) :
    (writeBatch ws : Act Store Unit).DoesAllOrNone arrears ws := by
  rintro ⟨tables, _ | _⟩
  · rw [writeBatch, exec_atomically]
    rcases hexec : (ws.forM write : Act Store Unit).exec ⟨tables, true⟩ with ⟨_ | u, s'⟩
    · rfl
    · have hall := exists_of_forM_write hexec
      exact hall
  · rfl

theorem keepsTable : KeepsTable Store.arrears where
  terms := (readsKeep arrears).terms
  plannedInstallments := (readsKeep arrears).plannedInstallments
  liveInstallments := (readsKeep arrears).liveInstallments
  consumption := (readsKeep arrears).consumption
  write := doesAllOrNone_write
  writeBatch := doesAllOrNone_writeBatch

end Store

/-! ## Stores under a plan of faults -/

namespace Faulty

section Keeps

variable {view : σ → γ}

theorem keeps_meet (site : Site) (loan : Option LoanId) :
    (meet site loan : Act (Faulty σ) Unit).Keeps (view ·.inner) := by
  intro s
  rw [meet, Act.exec_ofExec]
  dsimp only
  split <;> rfl

theorem keeps_modify {f : Faulty σ → Faulty σ} (h : ∀ s, (f s).inner = s.inner) :
    (modify f : Act (Faulty σ) Unit).Keeps (view ·.inner) :=
  fun s => congrArg view (h s)

theorem keeps_onInner {a : Act σ α} (h : a.Keeps view) :
    (onInner a : Act (Faulty σ) α).Keeps (view ·.inner) :=
  fun s => h s.inner

theorem keeps_forM_meet (site : Site) (ws : List ArrearsWrite) :
    (ws.forM fun w => meet site (some w.loan) : Act (Faulty σ) Unit).Keeps (view ·.inner) := by
  induction ws with
  | nil => exact .pure ()
  | cons w ws ih => exact .bind (keeps_meet site _) fun _ => ih

/-- The reads under a plan keep of the store what its own reads keep. -/
theorem readsKeep [BookAccess σ] (h : ReadsKeep view) :
    ReadsKeep fun s : Faulty σ => view s.inner where
  terms loan :=
    .bind (keeps_modify fun _ => rfl) fun _ =>
      .bind (keeps_meet _ _) fun _ => keeps_onInner (h.terms loan)
  plannedInstallments loan := by
    refine .bind (keeps_meet _ _) fun _ => .bind (fun _ => rfl) fun s => ?_
    split
    · exact .pure _
    · exact keeps_onInner (h.plannedInstallments loan)
  liveInstallments loan :=
    .bind (keeps_meet _ _) fun _ => keeps_onInner (h.liveInstallments loan)
  consumption loan :=
    .bind (keeps_meet _ _) fun _ => keeps_onInner (h.consumption loan)

end Keeps

variable {table : σ → ArrearsTable}

theorem doesAllOrNone_onInner {a : Act σ Unit} {ws : List ArrearsWrite}
    (h : a.DoesAllOrNone table ws) :
    (onInner a : Act (Faulty σ) Unit).DoesAllOrNone (table ·.inner) ws := by
  intro s
  have hinner := h s.inner
  rw [onInner, Act.exec_zoom]
  rcases hexec : a.exec s.inner with ⟨_ | u, t⟩
  · rw [hexec] at hinner
    exact hinner
  · rw [hexec] at hinner
    exact hinner

/-- A plan of faults leaves the table to the store that it is put on. -/
theorem keepsTable [BookAccess σ] [ArrearsAccess σ] (h : KeepsTable table) :
    KeepsTable fun s : Faulty σ => table s.inner where
  terms := (readsKeep h.readsKeep).terms
  plannedInstallments := (readsKeep h.readsKeep).plannedInstallments
  liveInstallments := (readsKeep h.readsKeep).liveInstallments
  consumption := (readsKeep h.readsKeep).consumption
  write w := .bind (keeps_meet _ _) (doesAllOrNone_onInner (h.write w))
  writeBatch ws :=
    .bind (keeps_modify fun _ => rfl)
      (.bind (keeps_forM_meet _ ws) (doesAllOrNone_onInner (h.writeBatch ws)))

end Faulty

end LoanArrears
