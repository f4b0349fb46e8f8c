-- SUMMARY: A business operation that commits while its loan is being posted: the row that is left, and when the posting overwrites it with what it read before.
import LoanArrears.Proofs.Job.Ending
import LoanArrears.Proofs.Job.Passes
import LoanArrears.Proofs.Subscription.Coherence

/-!
# Operations during a posting

A posting computes its writes outside of any transaction, and a call of an operation can commit
between two of its steps. What the posting reads behind the call is current. What it read before
and did not write yet is written behind the call as it is. So the row of a loan that the call
changed is current in the end exactly when the posting still reads the loan, or what it read
leaves the same row anyway.
-/

namespace LoanArrears

/-! ## Postings under way -/

namespace Stage

variable {b : Book} {today : Date} {policy : RetryPolicy} {stage stage' : Stage}

/-- The writes that a posting has computed are those of the book. -/
def ReadFrom (stage : Stage) (b : Book) (today : Date) : Prop :=
  ∀ w ∈ stage.pending, b.writeOf w.loan today .auto = .ok w

theorem Step.readFrom {ws : List ArrearsWrite} (h : Step b today stage stage' ws)
    (hstage : stage.ReadFrom b today) : stage'.ReadFrom b today := by
  cases h with
  | read h =>
    intro w hw
    rcases List.mem_append.1 hw with hw | hw
    · exact hstage w hw
    · rw [List.mem_singleton.1 hw, Book.loan_of_writeOf h, h]
  | write h => exact fun w hw => hstage w (List.mem_cons_of_mem _ hw)
  | skipWrite h => exact fun w hw => hstage w (List.mem_cons_of_mem _ hw)
  | skip h => exact hstage
  | refused h => exact hstage
  | nothing h => exact List.forall_mem_nil _
  | batch hne h => exact List.forall_mem_nil _
  | written p => exact List.forall_mem_nil _
  | stay p => exact List.forall_mem_nil _

/-- Steps of a posting leave the book as it is, and what it computes is read off it. -/
theorem exists_of_exec_advance {count : Nat} {t : ArrearsTable} {s : Store}
    (h : (stage.advance policy today count : Act Store Stage).exec ⟨some ⟨b, t⟩, false⟩ =
      (.ok stage', s)) (hstage : stage.Unfailed) (hread : stage.ReadFrom b today) :
    (∃ t', s = ⟨some ⟨b, t'⟩, false⟩) ∧ stage'.Unfailed ∧ stage'.ReadFrom b today := by
  induction count generalizing stage t with
  | zero =>
    cases h
    exact ⟨⟨t, rfl⟩, hstage, hread⟩
  | succ count ih =>
    rw [advance] at h
    rcases step_or_crash b today stage with ⟨stage₁, ws, hstep⟩ | ⟨c, hcrash⟩
    · rw [Act.exec_bind_ok (hstep.does hstage t)] at h
      exact ih h (hstep.unfailed hstage) (hstep.readFrom hread)
    · rw [Act.exec_bind_error (hcrash.does hstage t)] at h
      cases h

/-- A posting that comes to its end applies the writes it computed, and those of the loans that
    it still reads, off the book as it is by then. -/
theorem exists_of_exec_finish {t : ArrearsTable} {s : Store} {p : Posting}
    (h : (stage.finish policy today : Act Store Posting).exec ⟨some ⟨b, t⟩, false⟩ = (.ok p, s))
    (hstage : stage.Unfailed) :
    s = ⟨some ⟨b, (t.applyAll stage.pending).applyAll (b.writesOf today stage.unread)⟩, false⟩ := by
  obtain ⟨r, ws, hends⟩ := exists_ends b today stage
  rw [hends.does hstage t] at h
  obtain ⟨hr, rfl⟩ := Prod.mk.inj h
  rw [hends.writes_eq hr, ArrearsTable.applyAll_append]

end Stage

/-! ## The call between two steps -/

/-- A run of the operation in a transaction on the store changes the loan book only, by writes
    of the loan module, and the last trigger of the loan among its events is no disbursal. -/
def Triggers (operation : Act Store (α × List LoanEvent)) (s : Store) (loan : LoanId) : Prop :=
  ∀ answer events t, operation.exec { s with inTransaction := true } = (.ok (answer, events), t) →
    (∃ ws, t = Store.after { s with inTransaction := true } ws) ∧
    ∃ e, lastTrigger? events loan = some e ∧ e.kind ≠ .disbursed

/-- A call that succeeds leaves the current row under the loan. -/
theorem Triggers.exists_of_perform_ok {operation : Act Store (α × List LoanEvent)} {b : Book}
    {t : ArrearsTable} {tx : Bool} {loan : LoanId} (h : Triggers operation ⟨some ⟨b, t⟩, tx⟩ loan)
    {today : Date} {answer : α} {s : Store}
    (hcall : ((Subscriptions.standard fun _ => today).perform operation).exec ⟨some ⟨b, t⟩, tx⟩ =
      (.ok answer, s)) :
    ∃ b' t' w, s = ⟨some ⟨b', t'⟩, false⟩ ∧ b'.writeOf loan today .auto = .ok w ∧
      w.entryLeft = .ok (t'.find? loan) := by
  obtain ⟨events, s₁, s₂, hop, hevents, rfl⟩ := Store.exists_of_perform_ok hcall
  obtain ⟨⟨ws, rfl⟩, e, he, hkind⟩ := h answer events s₁ hop
  dsimp only at hevents
  rw [Store.after_eq] at hevents
  obtain ⟨t', rfl, hdelivers⟩ := Subscriptions.exists_of_exec_events hevents
  have hloan := hdelivers loan
  rw [he] at hloan
  obtain ⟨w, hw, hentry⟩ := hloan
  rw [Book.writeOf_agingMode fun hdisbursed => absurd hdisbursed hkind] at hw
  exact ⟨b.after ws, t', w, rfl, hw, hentry⟩

/-! ## A sample call -/

namespace Sample

/-- Close loan 2. -/
def closing : Act Store (Unit × List LoanEvent) := do
  Store.setStatus 2 .closedObligationsMet
  return ((), [.foreclosed 2 1])

def closedBook : Book :=
  (book 2).after [.setStatus 2 .closedObligationsMet]

/-- A posting of loan 2 that did no step. -/
def posting : Posting :=
  .start ⟨0, [2]⟩ 0 (.ofWorker 0 0)

/-- The posting after it read loan 2, with the write of the loan in arrears. -/
def readPosting : Posting :=
  posting.computed (.upsert ⟨2, Amounts.ofCents hundredCents, dueDate⟩)

theorem triggers_closing : Triggers closing ⟨some ⟨book 2, Table.empty⟩, false⟩ 2 := by
  intro answer events t h
  have hexec : closing.exec ⟨some ⟨book 2, Table.empty⟩, true⟩ =
      (.ok ((), [.foreclosed 2 1]), ⟨some ⟨closedBook, Table.empty⟩, true⟩) := rfl
  rw [hexec] at h
  cases h
  exact ⟨⟨[.setStatus 2 .closedObligationsMet], rfl⟩, _, rfl, by decide⟩

theorem exec_perform_closing :
    ((Subscriptions.standard fun _ => today).perform closing).exec
      ⟨some ⟨book 2, Table.empty⟩, false⟩ = (.ok (), ⟨some ⟨closedBook, Table.empty⟩, false⟩) :=
  rfl

theorem exec_advance_posting :
    ((Stage.reading posting [2]).advance .standard today 1 : Act Store Stage).exec
        ⟨some ⟨book 2, Table.empty⟩, false⟩ =
      (.ok (.reading readPosting []), ⟨some ⟨book 2, Table.empty⟩, false⟩) := by
  have hread : Stage.Step (book 2) today (.reading posting [2]) (.reading readPosting []) [] :=
    .read (writeOf_book (.inl rfl))
  exact Act.exec_bind_ok (hread.does rfl Table.empty)

end Sample

/-- A call on a loan commits after some steps of a posting, and the posting then comes to its
    end. The row of the loan is the current one exactly when the posting had not read the loan
    by then, or has nothing left to write for it but the same row. -/
theorem overlapping_call_keeps_row_iff {b : Book} {t : ArrearsTable} {today : Date}
    {policy : RetryPolicy} {batch : SubBatch} {worker : Nat} {stream : JitterStream} {count : Nat}
    {stage : Stage} {s₁ : Store}
    (hsteps : ((Stage.reading (.start batch worker stream) batch.loans).advance policy today count :
      Act Store Stage).exec ⟨some ⟨b, t⟩, false⟩ = (.ok stage, s₁))
    {operation : Act Store (α × List LoanEvent)} {loan : LoanId}
    (htriggers : Triggers operation s₁ loan) {answer : α} {s₂ : Store}
    (hcall : ((Subscriptions.standard fun _ => today).perform operation).exec s₁ =
      (.ok answer, s₂))
    {p : Posting} {s₃ : Store}
    (hfinish : (stage.finish policy today : Act Store Posting).exec s₂ = (.ok p, s₃)) :
    ∃ b' t' w, s₃ = ⟨some ⟨b', t'⟩, false⟩ ∧
      ((computeWrite loan today .auto : Act Store ArrearsWrite).exec s₃).1 = .ok w ∧
      (w.entryLeft = .ok (t'.find? loan) ↔
        loan ∈ stage.unread ∨ ∀ w₀ ∈ stage.pending, w₀.loan = loan →
          ∀ e, w₀.entryLeft = .ok e → w.entryLeft = .ok e) := by
  obtain ⟨⟨t₁, rfl⟩, hunfailed, hread⟩ :=
    Stage.exists_of_exec_advance hsteps rfl (List.forall_mem_nil _)
  obtain ⟨b', t₂, w, rfl, hw, hentry⟩ := htriggers.exists_of_perform_ok hcall
  have hs₃ := Stage.exists_of_exec_finish hfinish hunfailed
  subst hs₃
  have hcompute : ((computeWrite loan today .auto : Act Store ArrearsWrite).exec
      ⟨some ⟨b', (t₂.applyAll stage.pending).applyAll (b'.writesOf today stage.unread)⟩,
        false⟩).1 = .ok w := by
    rw [Store.does_computeWrite loan today .auto, hw]
  refine ⟨b', _, w, rfl, hcompute, ?_⟩
  rw [Book.find?_applyAll_writesOf, Book.entryOf_of_writeOf hw, hentry]
  dsimp only
  by_cases hunread : loan ∈ stage.unread
  · simp only [hunread, if_true, true_or]
  · simp only [hunread, if_false, false_or, Except.ok.injEq]
    constructor
    · intro hrow w₀ hw₀ hloan₀ e he
      -- All that was computed for the loan is one write, so it leaves the last row.
      have hsame : ∀ w' ∈ stage.pending, w'.loan = loan → ∀ e', w'.entryLeft = .ok e' → e' = e := by
        intro w' hw' hloan' e' he'
        have hwrite := hread w' hw'
        rw [hloan', ← hloan₀, hread w₀ hw₀] at hwrite
        cases hwrite
        exact Except.ok.inj (he'.symm.trans he)
      rw [hrow]
      exact ArrearsTable.find?_applyAll_of_mem hsame hw₀ hloan₀ he
    · intro hleaves
      refine (ArrearsTable.find?_applyAll_of_leaves ?_ rfl).symm
      exact fun w' hw' hloan' e' he' => (hleaves w' hw' hloan' e' he').symm

/-- Loan 2 is closed before the posting reads it, and has no row in the end. -/
theorem overlapping_call_keeps_row_of_sample :
    Triggers Sample.closing ⟨some ⟨Sample.book 2, Table.empty⟩, false⟩ 2 ∧
    ∃ p s₃ b' t' w,
      ((Stage.reading Sample.posting [2]).finish .standard Sample.today : Act Store Posting).exec
        ⟨some ⟨Sample.closedBook, Table.empty⟩, false⟩ = (.ok p, s₃) ∧
      s₃ = ⟨some ⟨b', t'⟩, false⟩ ∧
      ((computeWrite 2 Sample.today .auto : Act Store ArrearsWrite).exec s₃).1 = .ok w ∧
      w.entryLeft = .ok (t'.find? 2) := by
  have hsteps : ((Stage.reading Sample.posting [2]).advance .standard Sample.today 0 :
      Act Store Stage).exec ⟨some ⟨Sample.book 2, Table.empty⟩, false⟩ =
        (.ok (.reading Sample.posting [2]), ⟨some ⟨Sample.book 2, Table.empty⟩, false⟩) := rfl
  obtain ⟨p, s₃, hfinish⟩ : ∃ p s₃,
      ((Stage.reading Sample.posting [2]).finish .standard Sample.today : Act Store Posting).exec
        ⟨some ⟨Sample.closedBook, Table.empty⟩, false⟩ = (.ok p, s₃) := ⟨_, _, rfl⟩
  obtain ⟨b', t', w, hs₃, hw, hrow⟩ := overlapping_call_keeps_row_iff hsteps
    Sample.triggers_closing Sample.exec_perform_closing hfinish
  exact ⟨Sample.triggers_closing, p, s₃, b', t', w, hfinish, hs₃, hw,
    hrow.2 (.inl List.mem_cons_self)⟩

/-- Loan 2 is closed after the posting read it: the batch puts the row back that the call
    removed, and nobody fails. -/
theorem batch_loses_update_of_sample :
    ((Stage.reading Sample.posting [2]).advance .standard Sample.today 1 : Act Store Stage).exec
        ⟨some ⟨Sample.book 2, Table.empty⟩, false⟩ =
      (.ok (.reading Sample.readPosting []), ⟨some ⟨Sample.book 2, Table.empty⟩, false⟩) ∧
    Triggers Sample.closing ⟨some ⟨Sample.book 2, Table.empty⟩, false⟩ 2 ∧
    ((Subscriptions.standard fun _ => Sample.today).perform Sample.closing).exec
        ⟨some ⟨Sample.book 2, Table.empty⟩, false⟩ =
      (.ok (), ⟨some ⟨Sample.closedBook, Table.empty⟩, false⟩) ∧
    ∃ p t,
      ((Stage.reading Sample.readPosting []).finish .standard Sample.today :
        Act Store Posting).exec ⟨some ⟨Sample.closedBook, Table.empty⟩, false⟩ =
          (.ok p, ⟨some ⟨Sample.closedBook, t⟩, false⟩) ∧
      p.outcome.failure = none ∧
      ((computeWrite 2 Sample.today .auto : Act Store ArrearsWrite).exec
        ⟨some ⟨Sample.closedBook, t⟩, false⟩).1 = .ok (.delete 2) ∧
      ArrearsWrite.entryLeft (.delete 2) ≠ .ok (t.find? 2) := by
  refine ⟨Sample.exec_advance_posting, Sample.triggers_closing, Sample.exec_perform_closing, _, _,
    rfl, rfl, rfl, ?_⟩
  intro hleaves
  cases Except.ok.inj hleaves

end LoanArrears
