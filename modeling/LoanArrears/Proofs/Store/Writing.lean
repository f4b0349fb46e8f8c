-- SUMMARY: What writes do to the arrears table of a store: single writes, batches, recomputing a loan, and transactions.
import LoanArrears.Proofs.Book.Compute

/-!
# Writing the arrears table

A write sets what the table has under its loan to the entry it leaves, and touches nothing
else. A write that is refused changes nothing, and neither does a batch with such a write.
-/

namespace LoanArrears

/-! ## Tables -/

namespace ArrearsTable

/-- Set or remove the entry of a loan. -/
def set (t : ArrearsTable) (loan : LoanId) : Option ArrearsEntry → ArrearsTable
  | some e => t.put loan e
  | none => t.erase loan

theorem find?_set (t : ArrearsTable) (loan k : LoanId) (e : Option ArrearsEntry) :
    (t.set loan e).find? k = if k = loan then e else t.find? k := by
  cases e with
  | some e => exact t.find?_put loan k e
  | none => exact t.find?_erase loan k

/-- The table after a write; one that is refused changes nothing. -/
def apply (t : ArrearsTable) (w : ArrearsWrite) : ArrearsTable :=
  match w.entryLeft with
  | .ok e => t.set w.loan e
  | .error _ => t

theorem apply_of_entryLeft {w : ArrearsWrite} {e : Option ArrearsEntry} (h : w.entryLeft = .ok e)
    (t : ArrearsTable) : t.apply w = t.set w.loan e := by
  rw [apply, h]

theorem apply_of_refused {w : ArrearsWrite} {f : Fault} (h : w.entryLeft = .error f)
    (t : ArrearsTable) : t.apply w = t := by
  rw [apply, h]

/-- The table after writes in order, without those that are refused. -/
def applyAll (t : ArrearsTable) (writes : List ArrearsWrite) : ArrearsTable :=
  writes.foldl apply t

theorem applyAll_cons (t : ArrearsTable) (w : ArrearsWrite) (ws : List ArrearsWrite) :
    t.applyAll (w :: ws) = (t.apply w).applyAll ws := rfl

theorem applyAll_append (t : ArrearsTable) (ws ws' : List ArrearsWrite) :
    t.applyAll (ws ++ ws') = (t.applyAll ws).applyAll ws' :=
  List.foldl_append

end ArrearsTable

/-- Each of the writes leaves an entry, or one of them is refused. -/
theorem ArrearsWrite.accepted_or_refused (ws : List ArrearsWrite) :
    (∀ w ∈ ws, ∃ e, w.entryLeft = .ok e) ∨ ∃ w ∈ ws, ∃ f, w.entryLeft = .error f := by
  by_cases hrefused : ∃ w ∈ ws, ∃ f, w.entryLeft = .error f
  · exact .inr hrefused
  · refine .inl fun w hw => ?_
    cases hentry : w.entryLeft with
    | ok e => exact ⟨e, rfl⟩
    | error f => exact absurd ⟨w, hw, f, hentry⟩ hrefused

/-- The first write that is refused has accepted writes only in front of it. -/
theorem ArrearsWrite.exists_first_refused {ws : List ArrearsWrite}
    (h : ∃ w ∈ ws, ∃ f, w.entryLeft = .error f) :
    ∃ before w after f, ws = before ++ w :: after ∧
      (∀ w' ∈ before, ∃ e, w'.entryLeft = .ok e) ∧ w.entryLeft = .error f := by
  induction ws with
  | nil => simp at h
  | cons w ws ih =>
    cases hw : w.entryLeft with
    | error f => exact ⟨[], w, ws, f, rfl, by simp, hw⟩
    | ok e =>
      have hrest : ∃ w ∈ ws, ∃ f, w.entryLeft = .error f := by
        obtain ⟨w', hw', f, hf⟩ := h
        rcases List.mem_cons.1 hw' with rfl | hw'
        · rw [hw] at hf
          cases hf
        · exact ⟨w', hw', f, hf⟩
      obtain ⟨before, w', after, f, hsplit, hbefore, hf⟩ := ih hrest
      refine ⟨w :: before, w', after, f, by rw [hsplit, List.cons_append], ?_, hf⟩
      exact List.forall_mem_cons.2 ⟨⟨e, hw⟩, hbefore⟩

/-! ## Statements -/

namespace Store

variable {b : Book} {t : ArrearsTable} {tx : Bool}

theorem exec_changing (a : Act Store α) (s : Store) :
    (changing a : Act Store α).exec s = a.exec s :=
  exec_statement true a s

/-- A write sets its entry, or is refused and changes nothing. -/
theorem exec_write (w : ArrearsWrite) :
    (write w : Act Store Unit).exec ⟨some ⟨b, t⟩, tx⟩ =
      match w.entryLeft with
      | .ok e => (.ok (), ⟨some ⟨b, t.set w.loan e⟩, tx⟩)
      | .error f => (.error f, ⟨some ⟨b, t⟩, tx⟩) := by
  cases w with
  | delete loan => exact exec_changing _ _
  | upsert a =>
    simp only [write, ArrearsWrite.entryLeft]
    cases hprepare : a.prepare with
    | error f => exact Act.exec_bind_error (Act.Reads.lift_fault _)
    | ok entry =>
      rw [Act.exec_bind_ok (Act.Reads.lift_fault _), exec_changing, update, Act.exec_ofExec]
      simp only [ArrearsTable.upsert, bind, Except.bind]
      cases hcheck : entry.check with
      | error e => rfl
      | ok u => rfl

theorem exec_write_ok {w : ArrearsWrite} {e : Option ArrearsEntry} (h : w.entryLeft = .ok e) :
    (write w : Act Store Unit).exec ⟨some ⟨b, t⟩, tx⟩ =
      (.ok (), ⟨some ⟨b, t.set w.loan e⟩, tx⟩) := by
  rw [exec_write, h]

theorem exec_write_error {w : ArrearsWrite} {f : Fault} (h : w.entryLeft = .error f) :
    (write w : Act Store Unit).exec ⟨some ⟨b, t⟩, tx⟩ = (.error f, ⟨some ⟨b, t⟩, tx⟩) := by
  rw [exec_write, h]

/-! ## Batches -/

theorem exec_forM_write_ok {writes : List ArrearsWrite}
    (h : ∀ w ∈ writes, ∃ e, w.entryLeft = .ok e) (t : ArrearsTable) :
    (writes.forM write : Act Store Unit).exec ⟨some ⟨b, t⟩, tx⟩ =
      (.ok (), ⟨some ⟨b, t.applyAll writes⟩, tx⟩) := by
  induction writes generalizing t with
  | nil => rfl
  | cons w rest ih =>
    obtain ⟨e, he⟩ := h w List.mem_cons_self
    show (write w >>= fun _ => rest.forM write : Act Store Unit).exec _ = _
    rw [Act.exec_bind_ok (exec_write_ok he), ih fun w' hw' => h w' (List.mem_cons_of_mem _ hw'),
      ArrearsTable.applyAll_cons, ArrearsTable.apply_of_entryLeft he]

/-- A sequence of writes ends with the fault of the first one that is refused. -/
theorem exec_forM_write_first {before after : List ArrearsWrite} {w : ArrearsWrite}
    {f : Fault}
    (hbefore : ∀ w' ∈ before, ∃ e, w'.entryLeft = .ok e) (hw : w.entryLeft = .error f)
    (t : ArrearsTable) :
    ((before ++ w :: after).forM write : Act Store Unit).exec ⟨some ⟨b, t⟩, tx⟩ =
      (.error f, ⟨some ⟨b, t.applyAll before⟩, tx⟩) := by
  induction before generalizing t with
  | nil => exact Act.exec_bind_error (exec_write_error hw)
  | cons w' before ih =>
    obtain ⟨e, he⟩ := hbefore w' List.mem_cons_self
    refine (Act.exec_bind_ok (exec_write_ok he)).trans ?_
    rw [ArrearsTable.applyAll_cons, ArrearsTable.apply_of_entryLeft he]
    exact ih (fun w hw => hbefore w (List.mem_cons_of_mem _ hw)) _

/-- The fault of a sequence of writes is that of one of them. -/
theorem exec_forM_write_error {writes : List ArrearsWrite}
    (h : ∃ w ∈ writes, ∃ f, w.entryLeft = .error f) (t : ArrearsTable) :
    ∃ w ∈ writes, ∃ f, w.entryLeft = .error f ∧
      ((writes.forM write : Act Store Unit).exec ⟨some ⟨b, t⟩, tx⟩).1 = .error f := by
  obtain ⟨before, w, after, f, rfl, hbefore, hw⟩ := ArrearsWrite.exists_first_refused h
  refine ⟨w, List.mem_append_right _ List.mem_cons_self, f, hw, ?_⟩
  rw [exec_forM_write_first hbefore hw]

theorem exec_atomically (a : Act Store α) (tables : Option Tables) :
    (atomically a).exec ⟨tables, false⟩ =
      match a.exec ⟨tables, true⟩ with
      | (.ok v, t) => (.ok v, { t with inTransaction := false })
      | (.error f, _) => (.error f, ⟨tables, false⟩) := by
  simp only [atomically, Act.exec_ofExec, HasStore.store, HasStore.setStore, Bool.false_eq_true,
    if_false]
  rcases a.exec ⟨tables, true⟩ with ⟨_ | _, _⟩ <;> rfl

theorem exec_atomically_ok {a : Act Store α} {v : α} {tables tables' : Option Tables}
    (h : a.exec ⟨tables, true⟩ = (.ok v, ⟨tables', true⟩)) :
    (atomically a).exec ⟨tables, false⟩ = (.ok v, ⟨tables', false⟩) := by
  rw [exec_atomically, h]

/-- What fails in a transaction leaves the store as it was. -/
theorem exec_atomically_error {a : Act Store α} {f : Fault} {tables : Option Tables}
    (h : (a.exec ⟨tables, true⟩).1 = .error f) :
    (atomically a).exec ⟨tables, false⟩ = (.error f, ⟨tables, false⟩) := by
  rw [exec_atomically]
  rcases hexec : a.exec ⟨tables, true⟩ with ⟨r, t⟩
  rw [hexec] at h
  cases h
  rfl

theorem exec_writeBatch_ok {writes : List ArrearsWrite}
    (h : ∀ w ∈ writes, ∃ e, w.entryLeft = .ok e) :
    (writeBatch writes : Act Store Unit).exec ⟨some ⟨b, t⟩, false⟩ =
      (.ok (), ⟨some ⟨b, t.applyAll writes⟩, false⟩) :=
  exec_atomically_ok (exec_forM_write_ok h t)

theorem exec_writeBatch_error {writes : List ArrearsWrite}
    (h : ∃ w ∈ writes, ∃ f, w.entryLeft = .error f) :
    ∃ w ∈ writes, ∃ f, w.entryLeft = .error f ∧
      (writeBatch writes : Act Store Unit).exec ⟨some ⟨b, t⟩, false⟩ =
        (.error f, ⟨some ⟨b, t⟩, false⟩) := by
  obtain ⟨w, hw, f, hf, hexec⟩ := @exec_forM_write_error b true writes h t
  exact ⟨w, hw, f, hf, exec_atomically_error hexec⟩

/-! ## Recomputing a loan -/

variable {loan : LoanId} {today : Date} {mode : AgingMode} {w : ArrearsWrite}

theorem exec_recompute_ok {e : Option ArrearsEntry} (hw : b.writeOf loan today mode = .ok w)
    (he : w.entryLeft = .ok e) :
    (recompute loan today mode : Act Store ArrearsWrite).exec ⟨some ⟨b, t⟩, tx⟩ =
      (.ok w, ⟨some ⟨b, t.set w.loan e⟩, tx⟩) := by
  have hreads := HasBook.reads_computeWrite (s := ⟨some ⟨b, t⟩, tx⟩) ⟨t, rfl⟩ loan today mode
  rw [hw] at hreads
  rw [recompute, Act.exec_bind_ok hreads]
  have hwrite : (ArrearsAccess.write w : Act Store Unit).exec ⟨some ⟨b, t⟩, tx⟩ =
      (.ok (), ⟨some ⟨b, t.set w.loan e⟩, tx⟩) := exec_write_ok he
  rw [Act.exec_bind_ok hwrite]
  rfl

/-- A write that cannot be computed leaves the store as it is. -/
theorem exec_recompute_error {f : Fault} (hw : b.writeOf loan today mode = .error f) :
    (recompute loan today mode : Act Store ArrearsWrite).exec ⟨some ⟨b, t⟩, tx⟩ =
      (.error f, ⟨some ⟨b, t⟩, tx⟩) := by
  have hreads := HasBook.reads_computeWrite (s := ⟨some ⟨b, t⟩, tx⟩) ⟨t, rfl⟩ loan today mode
  rw [hw] at hreads
  exact Act.exec_bind_error hreads

/-- A write that is computed and refused leaves the store as it is. -/
theorem exec_recompute_refused {f : Fault} (hw : b.writeOf loan today mode = .ok w)
    (he : w.entryLeft = .error f) :
    (recompute loan today mode : Act Store ArrearsWrite).exec ⟨some ⟨b, t⟩, tx⟩ =
      (.error f, ⟨some ⟨b, t⟩, tx⟩) := by
  have hreads := HasBook.reads_computeWrite (s := ⟨some ⟨b, t⟩, tx⟩) ⟨t, rfl⟩ loan today mode
  rw [hw] at hreads
  have hwrite : (ArrearsAccess.write w : Act Store Unit).exec ⟨some ⟨b, t⟩, tx⟩ =
      (.error f, ⟨some ⟨b, t⟩, tx⟩) := exec_write_error he
  exact (Act.exec_bind_ok hreads).trans (Act.exec_bind_error hwrite)

/-- Recomputing a loan succeeds only by setting what the write of the loan leaves. -/
theorem exec_recompute_eq_ok {s : Store}
    (h : (recompute loan today mode : Act Store ArrearsWrite).exec ⟨some ⟨b, t⟩, tx⟩ = (.ok w, s)) :
    ∃ e, b.writeOf loan today mode = .ok w ∧ w.entryLeft = .ok e ∧
      s = ⟨some ⟨b, t.set w.loan e⟩, tx⟩ := by
  cases hwrite : b.writeOf loan today mode with
  | error f =>
    rw [exec_recompute_error hwrite] at h
    cases h
  | ok w' =>
    cases hentry : w'.entryLeft with
    | error f =>
      rw [exec_recompute_refused hwrite hentry] at h
      cases h
    | ok e =>
      rw [exec_recompute_ok hwrite hentry] at h
      cases h
      exact ⟨e, rfl, hentry, rfl⟩

end Store

end LoanArrears
