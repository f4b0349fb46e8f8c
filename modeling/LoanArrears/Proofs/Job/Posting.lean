-- SUMMARY: Posting sub-batches: the table gets the entries of all loans that have one, and exactly the loans with bad data are skipped.
import LoanArrears.Job.Posting
import LoanArrears.Proofs.Retry
import LoanArrears.Proofs.Store.Writing

/-!
# Posting a sub-batch

On a store without faults nothing is transient, so each step is one attempt. The writes of the
loans are computed, and those that can be done are done, whether the batch is written at once or
write by write. So posting leaves in the table the entries of all loans that have one, skips the
others, and does not fail as long as what goes wrong is data of single loans.
-/

namespace LoanArrears

/-! ## One attempt -/

section Retry

variable {act : Act σ α} {s t : σ} {policy : RetryPolicy} {stream : JitterStream}

theorem exec_retry_ok {v : α} (h : act.exec s = (.ok v, t)) :
    (retry policy stream act).exec s = (.ok ⟨.ok v, [], stream⟩, t) :=
  exec_retryFrom_final (o := .ok v) h (not_isTransientError_ok v) policy.maxRetries

/-- Bad data is not worth another attempt. -/
theorem exec_retry_data {e : Error} (h : act.exec s = (.error (.error e), t))
    (hdata : e.class = .data) :
    (retry policy stream act).exec s = (.ok ⟨.error e, [], stream⟩, t) := by
  have hfinal : ¬IsTransientError (.error e : Except Error α) := by
    rw [isTransientError_error_iff, Error.isTransient, hdata]
    decide
  exact exec_retryFrom_final (o := .error e) h hfinal policy.maxRetries

end Retry

/-! ## Writes of loans -/

namespace Book

/-- The writes of loans that can be computed. -/
def writesOf (b : Book) (today : Date) (loans : List LoanId) : List ArrearsWrite :=
  loans.flatMap fun id => (b.writeOf id today .auto).toOption.toList

variable {b : Book} {today : Date} {id : LoanId}

theorem writesOf_cons_ok {w : ArrearsWrite} (h : b.writeOf id today .auto = .ok w)
    (loans : List LoanId) : b.writesOf today (id :: loans) = w :: b.writesOf today loans := by
  rw [writesOf, List.flatMap_cons, h]
  rfl

theorem writesOf_cons_error {f : Fault} (h : b.writeOf id today .auto = .error f)
    (loans : List LoanId) : b.writesOf today (id :: loans) = b.writesOf today loans := by
  rw [writesOf, List.flatMap_cons, h]
  rfl

theorem writesOf_append (loans loans' : List LoanId) :
    b.writesOf today (loans ++ loans') = b.writesOf today loans ++ b.writesOf today loans' :=
  List.flatMap_append

theorem applyAll_writesOf_append (t : ArrearsTable) (loans loans' : List LoanId) :
    t.applyAll (b.writesOf today (loans ++ loans')) =
      (t.applyAll (b.writesOf today loans)).applyAll (b.writesOf today loans') := by
  rw [writesOf_append]
  exact List.foldl_append

theorem mem_writesOf_iff {loans : List LoanId} {w : ArrearsWrite} :
    w ∈ b.writesOf today loans ↔ ∃ id ∈ loans, b.writeOf id today .auto = .ok w := by
  unfold writesOf
  rw [List.mem_flatMap]
  constructor
  · rintro ⟨id, hid, hw⟩
    cases hwrite : b.writeOf id today .auto with
    | error f =>
      rw [hwrite] at hw
      cases hw
    | ok w' =>
      rw [hwrite] at hw
      rw [List.mem_singleton.1 hw]
      exact ⟨id, hid, hwrite⟩
  · rintro ⟨id, hid, hwrite⟩
    refine ⟨id, hid, ?_⟩
    rw [hwrite]
    exact List.mem_singleton_self w

theorem entryOf_of_writeOf {w : ArrearsWrite} (h : b.writeOf id today .auto = .ok w) :
    b.entryOf id today = w.entryLeft := by
  rw [entryOf, h]
  rfl

theorem entryOf_of_writeOf_error {f : Fault} (h : b.writeOf id today .auto = .error f) :
    b.entryOf id today = .error f := by
  rw [entryOf, h]
  rfl

/-- The writes of loans leave the entries of those that have one. -/
theorem find?_applyAll_writesOf (loans : List LoanId) (t : ArrearsTable) (k : LoanId) :
    (t.applyAll (b.writesOf today loans)).find? k =
      match b.entryOf k today with
      | .ok e => if k ∈ loans then e else t.find? k
      | .error _ => t.find? k := by
  induction loans generalizing t with
  | nil =>
    show t.find? k = _
    cases b.entryOf k today <;> simp
  | cons id loans ih =>
    cases hwrite : b.writeOf id today .auto with
    | error f =>
      rw [writesOf_cons_error hwrite, ih]
      by_cases hk : k = id
      · rw [hk, entryOf_of_writeOf_error hwrite]
      · simp only [List.mem_cons, hk, false_or]
    | ok w =>
      have hloan : w.loan = id := loan_of_writeOf hwrite
      rw [writesOf_cons_ok hwrite, ArrearsTable.applyAll, List.foldl_cons]
      change ((t.apply w).applyAll _).find? k = _
      rw [ih]
      cases hentry : w.entryLeft with
      | error f =>
        rw [ArrearsTable.apply_of_refused hentry]
        by_cases hk : k = id
        · rw [hk, entryOf_of_writeOf hwrite, hentry]
        · simp only [List.mem_cons, hk, false_or]
      | ok e =>
        rw [ArrearsTable.apply_of_entryLeft hentry]
        by_cases hk : k = id
        · rw [hk, entryOf_of_writeOf hwrite, hentry, ArrearsTable.find?_set, hloan]
          simp
        · simp only [ArrearsTable.find?_set, hloan, hk, if_false, List.mem_cons, false_or]

end Book

/-! ## Postings under way -/

/-- The loan of an item whose computation ends with an error, and that error. -/
def refusal (loan : α → LoanId) (f : α → Except Fault β) (a : α) : List SkippedLoan :=
  match f a with
  | .error (.error e) => [⟨loan a, e⟩]
  | _ => []

theorem mem_refusal_iff {loan : α → LoanId} {f : α → Except Fault β} {a : α} {l : SkippedLoan} :
    l ∈ refusal loan f a ↔ loan a = l.loan ∧ f a = .error (.error l.reason) := by
  unfold refusal
  split
  · next e he =>
    rw [he, List.mem_singleton]
    constructor
    · rintro rfl
      exact ⟨rfl, rfl⟩
    · rintro ⟨hloan, hreason⟩
      cases hreason
      rw [hloan]
  · next hother =>
    constructor
    · intro hl
      cases hl
    · rintro ⟨-, he⟩
      exact absurd he (hother l.reason)

namespace Posting

/-- The posting after more writes were computed and more loans skipped, without a failure. -/
structure Continues (p p' : Posting) (writes : List ArrearsWrite) (skipped : List SkippedLoan) :
    Prop where
  writes : p'.writes = p.writes ++ writes
  skipped : p'.outcome.skipped = p.outcome.skipped ++ skipped
  failure : p'.outcome.failure = p.outcome.failure

theorem Continues.refl (p : Posting) : p.Continues p [] [] where
  writes := (List.append_nil _).symm
  skipped := (List.append_nil _).symm
  failure := rfl

theorem Continues.isFailed_eq_false {p p' : Posting} {writes : List ArrearsWrite}
    {skipped : List SkippedLoan} (h : p.Continues p' writes skipped)
    (hp : p.outcome.failure = none) : p'.outcome.isFailed = false := by
  rw [PostOutcome.isFailed, h.failure, hp]
  rfl

variable {b : Book} {policy : RetryPolicy} {today : Date}

/-- If every step goes on, so do all of them in order. -/
theorem exec_untilFailure {step : Posting → α → Act Store Posting}
    {table : ArrearsTable → α → ArrearsTable} {writes : α → List ArrearsWrite}
    {skipped : α → List SkippedLoan} (items : List α) (p : Posting) (t : ArrearsTable)
    (hstep : ∀ p t, ∀ a ∈ items,
      ∃ p', (step p a).exec ⟨some ⟨b, t⟩, false⟩ = (.ok p', ⟨some ⟨b, table t a⟩, false⟩) ∧
        p.Continues p' (writes a) (skipped a))
    (hp : p.outcome.failure = none) :
    ∃ p', (untilFailure step p items).exec ⟨some ⟨b, t⟩, false⟩ =
        (.ok p', ⟨some ⟨b, items.foldl table t⟩, false⟩) ∧
      p.Continues p' (items.flatMap writes) (items.flatMap skipped) := by
  induction items generalizing p t with
  | nil => exact ⟨p, rfl, .refl p⟩
  | cons a rest ih =>
    obtain ⟨p₁, hexec, hcontinues⟩ := hstep p t a List.mem_cons_self
    have hp₁ : p₁.outcome.failure = none := hcontinues.failure.trans hp
    obtain ⟨p', hexec', hcontinues'⟩ := ih p₁ (table t a)
      (fun p t a' ha' => hstep p t a' (List.mem_cons_of_mem _ ha')) hp₁
    refine ⟨p', ?_, ?_, ?_, hcontinues'.failure.trans hcontinues.failure⟩
    · rw [untilFailure, Act.exec_bind_ok hexec, hcontinues.isFailed_eq_false hp]
      exact hexec'
    · rw [hcontinues'.writes, hcontinues.writes, List.append_assoc, List.flatMap_cons]
    · rw [hcontinues'.skipped, hcontinues.skipped, List.append_assoc, List.flatMap_cons]

theorem refuse_data {p : Posting} {loan : LoanId} {e : Error} {failure : PostFailure}
    (h : e.class = .data) : p.refuse loan e failure = p.skip loan e := by
  rw [refuse, if_pos h]

/-- Reading a loan adds its write, or skips the loan. -/
theorem exec_readLoan {s : Store} (hs : s.HasBook b) (p : Posting) (id : LoanId)
    (hdata : ∀ f, b.writeOf id today .auto = .error f → f.IsData) :
    ∃ p', (readLoan policy today p id : Act Store Posting).exec s = (.ok p', s) ∧
      p.Continues p' (b.writeOf id today .auto).toOption.toList
        (refusal (fun id => id) (b.writeOf · today .auto) id) := by
  have hreads := hs.reads_computeWrite id today .auto
  unfold refusal
  dsimp only
  cases hwrite : b.writeOf id today .auto with
  | ok w =>
    rw [hwrite] at hreads
    refine ⟨(p.note ⟨.ok w, [], p.stream⟩).computed w, ?_, rfl, (List.append_nil _).symm, rfl⟩
    rw [readLoan, Act.exec_bind_ok (exec_retry_ok hreads)]
    rfl
  | error f =>
    cases f with
    | crash c => exact (hdata _ hwrite).elim
    | error e =>
      rw [hwrite] at hreads
      have hclass : e.class = .data := hdata _ hwrite
      refine ⟨(p.note (α := ArrearsWrite) ⟨.error e, [], p.stream⟩).skip id e, ?_,
        (List.append_nil p.writes).symm, rfl, rfl⟩
      rw [readLoan, Act.exec_bind_ok (exec_retry_data hreads hclass)]
      dsimp only
      rw [refuse_data hclass]
      rfl

/-- Writing the write of one loan applies it, or skips the loan. -/
theorem exec_writeOne {p : Posting} {t : ArrearsTable} {w : ArrearsWrite}
    (hdata : ∀ f, w.entryLeft = .error f → f.IsData) :
    ∃ p', (writeOne policy p w : Act Store Posting).exec ⟨some ⟨b, t⟩, false⟩ =
        (.ok p', ⟨some ⟨b, t.apply w⟩, false⟩) ∧
      p.Continues p' [] (refusal ArrearsWrite.loan ArrearsWrite.entryLeft w) := by
  unfold refusal
  cases hentry : w.entryLeft with
  | ok e =>
    have hwrite : (ArrearsAccess.write w : Act Store Unit).exec ⟨some ⟨b, t⟩, false⟩ =
        (.ok (), ⟨some ⟨b, t.set w.loan e⟩, false⟩) := Store.exec_write_ok hentry
    refine ⟨(p.note (α := Unit) ⟨.ok (), [], p.stream⟩).landed [w], ?_,
      (List.append_nil _).symm, (List.append_nil _).symm, rfl⟩
    rw [writeOne, Act.exec_bind_ok (exec_retry_ok hwrite), ArrearsTable.apply_of_entryLeft hentry]
    rfl
  | error f =>
    cases f with
    | crash c => exact (hdata _ hentry).elim
    | error e =>
      have hclass : e.class = .data := hdata _ hentry
      have hwrite : (ArrearsAccess.write w : Act Store Unit).exec ⟨some ⟨b, t⟩, false⟩ =
          (.error (.error e), ⟨some ⟨b, t⟩, false⟩) := Store.exec_write_error hentry
      refine ⟨(p.note (α := Unit) ⟨.error e, [], p.stream⟩).skip w.loan e, ?_,
        (List.append_nil p.writes).symm, rfl, rfl⟩
      rw [writeOne, Act.exec_bind_ok (exec_retry_data hwrite hclass),
        ArrearsTable.apply_of_refused hentry]
      dsimp only
      rw [refuse_data hclass]
      rfl

/-- A batch without refused writes is written at once. -/
theorem exec_flush_of_accepted {p : Posting} {t : ArrearsTable}
    (hall : ∀ w ∈ p.writes, ∃ e, w.entryLeft = .ok e) :
    ∃ p', (p.flush policy : Act Store Posting).exec ⟨some ⟨b, t⟩, false⟩ =
        (.ok p', ⟨some ⟨b, t.applyAll p.writes⟩, false⟩) ∧
      p.Continues p' [] (p.writes.flatMap (refusal ArrearsWrite.loan ArrearsWrite.entryLeft)) := by
  have hbatch : (ArrearsAccess.writeBatch p.writes : Act Store Unit).exec ⟨some ⟨b, t⟩, false⟩ =
      (.ok (), ⟨some ⟨b, t.applyAll p.writes⟩, false⟩) := Store.exec_writeBatch_ok hall
  have hnone : p.writes.flatMap (refusal ArrearsWrite.loan ArrearsWrite.entryLeft) = [] := by
    rw [List.flatMap_eq_nil_iff]
    intro w hw
    obtain ⟨e, he⟩ := hall w hw
    rw [refusal, he]
  rw [hnone]
  refine ⟨(p.note (α := Unit) ⟨.ok (), [], p.stream⟩).landed p.writes, ?_,
    (List.append_nil _).symm, (List.append_nil _).symm, rfl⟩
  rw [flush, Act.exec_bind_ok (exec_retry_ok hbatch)]
  rfl

/-- With a refused write the batch is rolled back and its writes are done one by one. -/
theorem exec_flush_of_refused {p : Posting} {t : ArrearsTable} (hp : p.outcome.failure = none)
    (hdata : ∀ w ∈ p.writes, ∀ f, w.entryLeft = .error f → f.IsData)
    (hrefused : ∃ w ∈ p.writes, ∃ f, w.entryLeft = .error f) :
    ∃ p', (p.flush policy : Act Store Posting).exec ⟨some ⟨b, t⟩, false⟩ =
        (.ok p', ⟨some ⟨b, t.applyAll p.writes⟩, false⟩) ∧
      p.Continues p' [] (p.writes.flatMap (refusal ArrearsWrite.loan ArrearsWrite.entryLeft)) := by
  obtain ⟨w, hw, f, hf, hrefusal⟩ := @Store.exec_writeBatch_error b t p.writes hrefused
  cases f with
  | crash c => exact (hdata w hw _ hf).elim
  | error e =>
    have hbatch : (ArrearsAccess.writeBatch p.writes : Act Store Unit).exec
        ⟨some ⟨b, t⟩, false⟩ = (.error (.error e), ⟨some ⟨b, t⟩, false⟩) := hrefusal
    have hclass : e.class = .data := hdata w hw _ hf
    obtain ⟨p', hexec, hcontinues⟩ := exec_untilFailure p.writes
      (p.note (α := Unit) ⟨.error e, [], p.stream⟩) t
      (fun p t w hw => @exec_writeOne b policy p t w (hdata w hw)) hp
    refine ⟨p', ?_, ?_, hcontinues.skipped, hcontinues.failure⟩
    · rw [flush, Act.exec_bind_ok (exec_retry_data hbatch hclass)]
      dsimp only
      rw [if_pos hclass]
      exact hexec
    · rw [hcontinues.writes, List.flatMap_eq_nil_iff.2 fun _ _ => rfl]
      rfl

/-- Flushing applies all writes and skips those that are refused. -/
theorem exec_flush {p : Posting} {t : ArrearsTable} (hp : p.outcome.failure = none)
    (hdata : ∀ w ∈ p.writes, ∀ f, w.entryLeft = .error f → f.IsData) :
    ∃ p', (p.flush policy : Act Store Posting).exec ⟨some ⟨b, t⟩, false⟩ =
        (.ok p', ⟨some ⟨b, t.applyAll p.writes⟩, false⟩) ∧
      p.Continues p' [] (p.writes.flatMap (refusal ArrearsWrite.loan ArrearsWrite.entryLeft)) := by
  rcases ArrearsWrite.accepted_or_refused p.writes with hall | hrefused
  · exact exec_flush_of_accepted hall
  · exact exec_flush_of_refused hp hdata hrefused

end Posting

/-! ## Sub-batches -/

/-- What goes wrong with the loans is bad data of single loans. -/
def Book.FailsByData (b : Book) (today : Date) (loans : List LoanId) : Prop :=
  ∀ id ∈ loans, ∀ f, b.entryOf id today = .error f → f.IsData

/-- The loans that are skipped, when read or when written, are those without an entry. -/
theorem Book.mem_refusals_iff (b : Book) (today : Date) (loans : List LoanId) (l : SkippedLoan) :
    (l ∈ loans.flatMap (refusal (fun id => id) (b.writeOf · today .auto)) ∨
      l ∈ (b.writesOf today loans).flatMap (refusal ArrearsWrite.loan ArrearsWrite.entryLeft)) ↔
      l.loan ∈ loans ∧ b.entryOf l.loan today = .error (.error l.reason) := by
  simp only [List.mem_flatMap, mem_refusal_iff, mem_writesOf_iff]
  constructor
  · rintro (⟨id, hid, hloan, hwrite⟩ | ⟨w, ⟨id, hid, hwrite⟩, hloan, hentry⟩)
    · exact ⟨hloan ▸ hid, entryOf_of_writeOf_error (hloan ▸ hwrite)⟩
    · have hid' : id = l.loan := (loan_of_writeOf hwrite).symm.trans hloan
      exact ⟨hid' ▸ hid, (entryOf_of_writeOf (hid' ▸ hwrite)).trans hentry⟩
  · rintro ⟨hmem, hentry⟩
    cases hwrite : b.writeOf l.loan today .auto with
    | error f =>
      rw [entryOf_of_writeOf_error hwrite] at hentry
      cases hentry
      exact .inl ⟨l.loan, hmem, rfl, hwrite⟩
    | ok w =>
      rw [entryOf_of_writeOf hwrite] at hentry
      exact .inr ⟨w, ⟨l.loan, hmem, hwrite⟩, loan_of_writeOf hwrite, hentry⟩

/-- Behind the reading of its loans, posting a sub-batch flushes the writes if there are any. -/
theorem SubBatch.exec_post_of_read {b : Book} {today : Date} {batch : SubBatch}
    {policy : RetryPolicy} {worker : Nat} {stream : JitterStream} {t : ArrearsTable} {p : Posting}
    (hread : (Posting.untilFailure (Posting.readLoan policy today) (.start batch worker stream)
      batch.loans : Act Store Posting).exec ⟨some ⟨b, t⟩, false⟩ =
        (.ok p, ⟨some ⟨b, t⟩, false⟩))
    (hp : p.outcome.failure = none)
    (hdata : ∀ w ∈ p.writes, ∀ f, w.entryLeft = .error f → f.IsData) :
    ∃ p', (batch.post policy today worker stream :
        Act Store (PostOutcome × JitterStream)).exec ⟨some ⟨b, t⟩, false⟩ =
        (.ok (p'.outcome, p'.stream), ⟨some ⟨b, t.applyAll p.writes⟩, false⟩) ∧
      p.Continues p' [] (p.writes.flatMap (refusal ArrearsWrite.loan ArrearsWrite.entryLeft)) := by
  have hfailed : p.outcome.isFailed = false := (Posting.Continues.refl p).isFailed_eq_false hp
  rw [SubBatch.post, Act.exec_bind_ok hread]
  cases hempty : p.writes.isEmpty with
  | true =>
    have hnil : p.writes = [] := List.isEmpty_iff.1 hempty
    rw [hnil]
    refine ⟨p, ?_, .refl p⟩
    simp only [hfailed]
    rfl
  | false =>
    obtain ⟨p', hflush, hflushed⟩ := @Posting.exec_flush b policy p t hp hdata
    refine ⟨p', ?_, hflushed⟩
    simp only [hfailed]
    exact (Act.exec_bind_ok hflush).trans rfl

/-- Posting a sub-batch applies the writes of its loans and skips those with bad data. -/
theorem SubBatch.exec_post {b : Book} {today : Date} (batch : SubBatch) (policy : RetryPolicy)
    (worker : Nat) (stream : JitterStream) (t : ArrearsTable)
    (hdata : b.FailsByData today batch.loans) :
    ∃ o stream', (batch.post policy today worker stream :
        Act Store (PostOutcome × JitterStream)).exec ⟨some ⟨b, t⟩, false⟩ =
        (.ok (o, stream'), ⟨some ⟨b, t.applyAll (b.writesOf today batch.loans)⟩, false⟩) ∧
      o.failure = none ∧
      ∀ l, l ∈ o.skipped ↔
        l.loan ∈ batch.loans ∧ b.entryOf l.loan today = .error (.error l.reason) := by
  have hreading (id : LoanId) (hid : id ∈ batch.loans) (f : Fault)
      (hf : b.writeOf id today .auto = .error f) : f.IsData :=
    hdata id hid f (Book.entryOf_of_writeOf_error hf)
  obtain ⟨p, hread, hcontinues⟩ := Posting.exec_untilFailure batch.loans
    (.start batch worker stream) t (fun p t id hid =>
      @Posting.exec_readLoan b policy today ⟨some ⟨b, t⟩, false⟩ ⟨t, rfl⟩ p id (hreading id hid))
    rfl
  have htable : batch.loans.foldl (fun t _ => t) t = t := List.foldl_fixed batch.loans
  rw [htable] at hread
  have hfailure : p.outcome.failure = none := hcontinues.failure
  have hwrites : p.writes = b.writesOf today batch.loans := hcontinues.writes
  have hskipped : p.outcome.skipped =
      batch.loans.flatMap (refusal (fun id => id) (b.writeOf · today .auto)) := hcontinues.skipped
  have hwriting : ∀ w ∈ p.writes, ∀ f, w.entryLeft = .error f → f.IsData := by
    intro w hw f hf
    rw [hwrites] at hw
    obtain ⟨id, hid, hwrite⟩ := Book.mem_writesOf_iff.1 hw
    exact hdata id hid f ((Book.entryOf_of_writeOf hwrite).trans hf)
  obtain ⟨p', hpost, hcontinues'⟩ := SubBatch.exec_post_of_read hread hfailure hwriting
  refine ⟨p'.outcome, p'.stream, hwrites ▸ hpost, hcontinues'.failure.trans hfailure, fun l => ?_⟩
  rw [hcontinues'.skipped, hskipped, hwrites, List.mem_append]
  exact b.mem_refusals_iff today batch.loans l

end LoanArrears
