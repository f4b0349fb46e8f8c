-- SUMMARY: What an act does to the arrears table of a store without faults: its answer, and the writes that it applies, whatever the table holds.
import LoanArrears.Proofs.Book.Failing
import LoanArrears.Proofs.Book.Table
import LoanArrears.Proofs.Job.Posting

/-!
# Effects without faults

An act `Does` writes if it gives the same answer over every arrears table and applies the writes
to it. So do the accesses of a posting: what is read is the loan book only. Acts that do
writes of different loans can change places (`ArrearsTable.applyAll_comm`).
-/

namespace LoanArrears

/-! ## Writes of different loans -/

namespace ArrearsTable

variable {t : ArrearsTable} {w w' : ArrearsWrite} {ws ws' : List ArrearsWrite}

theorem find?_apply_of_ne {k : LoanId} (h : k ≠ w.loan) : (t.apply w).find? k = t.find? k := by
  unfold apply
  split
  · rw [find?_set, if_neg h]
  · rfl

theorem find?_applyAll_of_ne {k : LoanId} (h : ∀ w ∈ ws, k ≠ w.loan) :
    (t.applyAll ws).find? k = t.find? k := by
  induction ws generalizing t with
  | nil => rfl
  | cons w ws ih =>
    rw [applyAll_cons, ih fun w' hw' => h w' (List.mem_cons_of_mem _ hw'),
      find?_apply_of_ne (h w List.mem_cons_self)]

/-- What a write leaves under its loan depends on what was there before only if it is refused. -/
theorem find?_apply_congr {t' : ArrearsTable} {k : LoanId} (h : t.find? k = t'.find? k)
    (w : ArrearsWrite) : (t.apply w).find? k = (t'.apply w).find? k := by
  unfold apply
  split
  · simp only [find?_set, h]
  · exact h

theorem find?_applyAll_congr {t' : ArrearsTable} {k : LoanId} (h : t.find? k = t'.find? k)
    (ws : List ArrearsWrite) : (t.applyAll ws).find? k = (t'.applyAll ws).find? k := by
  induction ws generalizing t t' with
  | nil => exact h
  | cons w ws ih => exact ih (find?_apply_congr h w)

/-- Writes of different loans can change places. -/
theorem applyAll_comm (h : ∀ w ∈ ws, ∀ w' ∈ ws', w.loan ≠ w'.loan) (t : ArrearsTable) :
    (t.applyAll ws).applyAll ws' = (t.applyAll ws').applyAll ws := by
  apply Table.ext_find?
  intro k
  by_cases hk : ∃ w ∈ ws, k = w.loan
  · obtain ⟨w, hw, rfl⟩ := hk
    have hout (t : ArrearsTable) : (t.applyAll ws').find? w.loan = t.find? w.loan :=
      find?_applyAll_of_ne (h w hw)
    rw [hout]
    exact find?_applyAll_congr (hout t).symm ws
  · have hout (t : ArrearsTable) : (t.applyAll ws).find? k = t.find? k :=
      find?_applyAll_of_ne fun w hw heq => hk ⟨w, hw, heq⟩
    rw [hout]
    exact find?_applyAll_congr (hout t) ws'

/-- Writes that leave what is there, or are refused, change nothing. -/
theorem find?_applyAll_of_leaves {k : LoanId} {e : Option ArrearsEntry}
    (hall : ∀ w ∈ ws, w.loan = k → ∀ e', w.entryLeft = .ok e' → e' = e) (ht : t.find? k = e) :
    (t.applyAll ws).find? k = e := by
  induction ws generalizing t with
  | nil => exact ht
  | cons w ws ih =>
    refine ih (fun w' hw' => hall w' (List.mem_cons_of_mem _ hw')) ?_
    by_cases hk : k = w.loan
    · cases hentry : w.entryLeft with
      | error f => rw [apply_of_refused hentry, ht]
      | ok e' =>
        rw [apply_of_entryLeft hentry, find?_set, if_pos hk]
        exact hall w List.mem_cons_self hk.symm e' hentry
    · rw [find?_apply_of_ne hk, ht]

/-- One of the writes is enough to leave what all of them leave. -/
theorem find?_applyAll_of_mem {k : LoanId} {e : Option ArrearsEntry}
    (hall : ∀ w ∈ ws, w.loan = k → ∀ e', w.entryLeft = .ok e' → e' = e) {w : ArrearsWrite}
    (hw : w ∈ ws) (hk : w.loan = k) (hentry : w.entryLeft = .ok e) :
    (t.applyAll ws).find? k = e := by
  induction ws generalizing t with
  | nil => cases hw
  | cons w' ws ih =>
    have hrest : ∀ w ∈ ws, w.loan = k → ∀ e', w.entryLeft = .ok e' → e' = e :=
      fun w hw => hall w (List.mem_cons_of_mem _ hw)
    rcases List.mem_cons.1 hw with rfl | hw
    · rw [applyAll_cons]
      refine find?_applyAll_of_leaves hrest ?_
      rw [apply_of_entryLeft hentry, find?_set, if_pos hk.symm]
    · exact ih hrest hw

end ArrearsTable

/-! ## Effects -/

namespace Act

/-- Over every arrears table the act ends with `r` and applies the writes. -/
def Does (a : Act Store α) (b : Book) (tx : Bool) (r : Except Fault α)
    (ws : List ArrearsWrite) : Prop :=
  ∀ t, a.exec ⟨some ⟨b, t⟩, tx⟩ = (r, ⟨some ⟨b, t.applyAll ws⟩, tx⟩)

namespace Does

variable {b : Book} {tx : Bool} {ws ws' : List ArrearsWrite}

theorem pure (v : α) : (Pure.pure v : Act Store α).Does b tx (.ok v) [] :=
  fun _ => rfl

theorem of_reads {a : Act Store α} {r : Except Fault α}
    (h : ∀ s : Store, s.HasBook b → a.Reads s r) : a.Does b tx r [] :=
  fun t => h ⟨some ⟨b, t⟩, tx⟩ ⟨t, rfl⟩

theorem bind_ok {a : Act Store α} {f : α → Act Store β} {v : α} {r : Except Fault β}
    (ha : a.Does b tx (.ok v) ws) (hf : (f v).Does b tx r ws') :
    (a >>= f).Does b tx r (ws ++ ws') := by
  intro t
  rw [exec_bind_ok (ha t), hf, ArrearsTable.applyAll_append]

theorem bind_error {a : Act Store α} {f : α → Act Store β} {e : Fault}
    (ha : a.Does b tx (.error e) ws) : (a >>= f).Does b tx (.error e) ws :=
  fun t => exec_bind_error (ha t)

theorem map {a : Act Store α} {r : Except Fault α} (f : α → β) (ha : a.Does b tx r ws) :
    (f <$> a).Does b tx (r.map f) ws := by
  intro t
  rw [exec_map, ha]

theorem outcome {a : Act Store α} {r : Except Fault α} (ha : a.Does b tx r ws) :
    a.outcome.Does b tx (.ok r) ws := by
  intro t
  rw [exec_outcome, ha]

/-- What succeeds in a transaction does the same, what fails does nothing. -/
theorem atomically {a : Act Store α} {r : Except Fault α} (ha : a.Does b true r ws) :
    (Store.atomically a).Does b false r (if r.isOk then ws else []) := by
  intro t
  cases r with
  | ok v => exact Store.exec_atomically_ok (ha t)
  | error f =>
    refine Store.exec_atomically_error ?_
    rw [ha]

end Does

end Act

/-! ## One attempt -/

theorem exec_retry_crash {act : Act σ α} {s t : σ} {policy : RetryPolicy} {stream : JitterStream}
    {c : Crash} (h : act.exec s = (.error (.crash c), t)) :
    (retry policy stream act).exec s = (.error (.crash c), t) := by
  unfold retry
  cases policy.maxRetries with
  | zero => exact Act.exec_bind_error (Act.exec_attempt_crash h)
  | succ left => exact Act.exec_bind_error (Act.exec_attempt_crash h)

/-- One attempt is all there is to something that ends like this: bad data are an answer, and a
    crash goes through. -/
def oneAttempt (stream : JitterStream) : Except Fault α → Except Fault (RetryResult α)
  | .ok v => .ok ⟨.ok v, [], stream⟩
  | .error (.error e) => .ok ⟨.error e, [], stream⟩
  | .error (.crash c) => .error (.crash c)

theorem Act.Does.retry {b : Book} {tx : Bool} {ws : List ArrearsWrite} {a : Act Store α}
    {r : Except Fault α} (ha : a.Does b tx r ws) (hfinal : FailsOnly Fault.IsFinal r)
    (policy : RetryPolicy) (stream : JitterStream) :
    (LoanArrears.retry policy stream a).Does b tx (oneAttempt stream r) ws := by
  intro t
  cases r with
  | ok v => exact exec_retry_ok (ha t)
  | error f =>
    cases f with
    | error e => exact exec_retry_data (ha t) (hfinal _ rfl)
    | crash c => exact exec_retry_crash (ha t)

/-! ## Accesses -/

namespace ArrearsWrite

/-- What doing the write ends with. -/
def answer (w : ArrearsWrite) : Except Fault Unit :=
  w.entryLeft.map fun _ => ()

/-- What doing writes in order ends with: the fault of the first one that is refused. -/
def answerAll : List ArrearsWrite → Except Fault Unit
  | [] => .ok ()
  | w :: ws => w.answer >>= fun _ => answerAll ws

theorem failsOnly_answer (w : ArrearsWrite) : FailsOnly Fault.IsFinal w.answer := by
  intro f h
  unfold answer at h
  cases hentry : w.entryLeft with
  | ok e =>
    rw [hentry] at h
    cases h
  | error f' =>
    rw [hentry] at h
    cases h
    exact w.failsOnly_entryLeft _ hentry

theorem failsOnly_answerAll (ws : List ArrearsWrite) : FailsOnly Fault.IsFinal (answerAll ws) := by
  induction ws with
  | nil => exact .pure ()
  | cons w ws ih => exact .bind w.failsOnly_answer fun _ => ih

end ArrearsWrite

theorem ArrearsTable.apply_of_answer {w : ArrearsWrite} {f : Fault} (h : w.answer = .error f)
    (t : ArrearsTable) : t.apply w = t := by
  unfold ArrearsWrite.answer at h
  cases hentry : w.entryLeft with
  | ok e =>
    rw [hentry] at h
    cases h
  | error f' => exact apply_of_refused hentry t

namespace Store

variable {b : Book} {tx : Bool}

theorem does_computeWrite (id : LoanId) (today : Date) (mode : AgingMode) :
    (computeWrite id today mode : Act Store ArrearsWrite).Does b tx (b.writeOf id today mode) [] :=
  .of_reads fun _ hs => hs.reads_computeWrite id today mode

theorem does_write (w : ArrearsWrite) :
    (ArrearsAccess.write w : Act Store Unit).Does b tx w.answer [w] := by
  intro t
  change (write w : Act Store Unit).exec _ = _
  rw [exec_write, ArrearsWrite.answer, ArrearsTable.applyAll_cons, ArrearsTable.apply]
  cases w.entryLeft <;> rfl

theorem exists_does_forM_write (ws : List ArrearsWrite) :
    ∃ done, (ws.forM write : Act Store Unit).Does b tx (ArrearsWrite.answerAll ws) done ∧
      (ArrearsWrite.answerAll ws = .ok () → done = ws) := by
  induction ws with
  | nil => exact ⟨[], .pure (), fun _ => rfl⟩
  | cons w ws ih =>
    obtain ⟨done, hdone, hall⟩ := ih
    have hwrite : (write w : Act Store Unit).Does b tx w.answer [w] := does_write w
    have hcons : (w :: ws).forM write = (write w >>= fun _ => ws.forM write : Act Store Unit) := rfl
    rw [hcons, ArrearsWrite.answerAll]
    cases hanswer : w.answer with
    | ok u =>
      rw [hanswer] at hwrite
      exact ⟨w :: done, .bind_ok hwrite hdone, fun h => by rw [hall h]⟩
    | error f =>
      rw [hanswer] at hwrite
      exact ⟨[w], .bind_error hwrite, fun h => by cases h⟩

/-- A batch is applied as a whole or not at all. -/
theorem does_writeBatch (ws : List ArrearsWrite) :
    (ArrearsAccess.writeBatch ws : Act Store Unit).Does b false (ArrearsWrite.answerAll ws)
      (if (ArrearsWrite.answerAll ws).isOk then ws else []) := by
  obtain ⟨done, hdone, hall⟩ := @exists_does_forM_write b true ws
  have hbatch := hdone.atomically
  cases hanswer : ArrearsWrite.answerAll ws with
  | ok u =>
    rw [hanswer, hall hanswer] at hbatch
    exact hbatch
  | error f =>
    rw [hanswer] at hbatch
    exact hbatch

end Store

end LoanArrears
