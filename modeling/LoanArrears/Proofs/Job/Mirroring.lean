-- SUMMARY: Postings on two stores that answer alike for the loans: they have the same outcomes, up to whole waves.
import LoanArrears.Proofs.Job.Calls
import LoanArrears.Proofs.Job.Course
import LoanArrears.Proofs.Store.Mirroring

/-!
# Postings on stores that answer alike

A posting makes no accesses but those for its loans. So on two stores where these mirror each
other (`MirrorsLoans`) it has the same outcome, and so has a wave.
-/

namespace LoanArrears

/-- The accesses for the served loans mirror each other. -/
structure MirrorsLoans [BookAccess σ] [ArrearsAccess σ] [BookAccess τ] [ArrearsAccess τ]
    (R : σ → τ → Prop) (served : LoanId → Prop) : Prop extends MirrorsReads R served where
  write (w : ArrearsWrite) (h : served w.loan) :
    (ArrearsAccess.write w : Act σ Unit).Mirrors R (ArrearsAccess.write w)
  writeBatch (ws : List ArrearsWrite) (h : ∀ w ∈ ws, served w.loan) :
    (ArrearsAccess.writeBatch ws : Act σ Unit).Mirrors R (ArrearsAccess.writeBatch ws)

/-- Only the writes that were computed for the loans are waiting to be done. -/
theorem Posting.loan_mem_of_read [BookAccess σ] {b : SubBatch} {policy : RetryPolicy}
    {today : Date} {worker : Nat} {stream : JitterStream} {s s' : σ} {p : Posting}
    (h : (untilFailure (readLoan policy today) (.start b worker stream) b.loans).exec s =
      (.ok p, s')) : ∀ w ∈ p.writes, w.loan ∈ b.loans := by
  have hreads := CallKind.untilFailure_cases (k := .reading)
    (@Posting.readLoan_eq σ _ policy today) b.loans (.start b worker stream) rfl s
  rw [h] at hreads
  obtain ⟨reads, hcalls, hp⟩ := hreads
  intro w hw
  have hanswer : w ∈ answers reads := by
    rw [hp, CallKind.writes_foldl_reading] at hw
    exact hw
  have hloan : w.loan ∈ answered reads :=
    hcalls.map_loan_answers ▸ List.mem_map_of_mem hanswer
  exact hcalls.answered_sublist.subset hloan

/-- Calls that mirror each other, until one fails. -/
theorem Act.Mirrors.untilFailure {R : σ → τ → Prop} {step : Posting → α → Act σ Posting}
    {step' : Posting → α → Act τ Posting} {items : List α}
    (hstep : ∀ p, ∀ a ∈ items, (step p a).Mirrors R (step' p a)) (p : Posting) :
    (Posting.untilFailure step p items).Mirrors R (Posting.untilFailure step' p items) := by
  induction items generalizing p with
  | nil => exact .pure p
  | cons a items ih =>
    refine .bind (hstep p a List.mem_cons_self) fun p' _ => ?_
    split
    · exact .pure p'
    · exact ih (fun p a ha => hstep p a (List.mem_cons_of_mem _ ha)) p'

namespace MirrorsLoans

variable [BookAccess σ] [ArrearsAccess σ] [BookAccess τ] [ArrearsAccess τ] {R : σ → τ → Prop}
  {served : LoanId → Prop} {policy : RetryPolicy} {today : Date}

theorem readLoan (h : MirrorsLoans R served) {loan : LoanId} (hloan : served loan) (p : Posting) :
    (Posting.readLoan policy today p loan : Act σ Posting).Mirrors R
      (Posting.readLoan policy today p loan) := by
  rw [Posting.readLoan_eq, Posting.readLoan_eq]
  exact ((h.computeWrite hloan today .auto).retry policy p.stream).map _

theorem writeOne (h : MirrorsLoans R served) {w : ArrearsWrite} (hw : served w.loan)
    (p : Posting) :
    (Posting.writeOne policy p w : Act σ Posting).Mirrors R (Posting.writeOne policy p w) := by
  rw [Posting.writeOne_eq, Posting.writeOne_eq]
  exact ((h.write w hw).retry policy p.stream).map _

theorem flush (h : MirrorsLoans R served) {p : Posting} (hp : ∀ w ∈ p.writes, served w.loan) :
    (p.flush policy : Act σ Posting).Mirrors R (p.flush policy) := by
  refine .bind ((h.writeBatch p.writes hp).retry policy p.stream) fun r _ => ?_
  rcases r with ⟨e | v, delays, stream⟩
  · dsimp only
    split
    · exact .untilFailure (fun p w hw => h.writeOne (hp w hw) p) _
    · exact .pure _
  · exact .pure _

theorem post (h : MirrorsLoans R served) {b : SubBatch} (hb : ∀ loan ∈ b.loans, served loan)
    (worker : Nat) (stream : JitterStream) :
    (b.post policy today worker stream : Act σ (PostOutcome × JitterStream)).Mirrors R
      (b.post policy today worker stream) := by
  refine .bind (.untilFailure (fun p loan hloan => h.readLoan (hb loan hloan) p) _) ?_
  rintro p ⟨s, s', hread⟩
  have hwrites : ∀ w ∈ p.writes, served w.loan :=
    fun w hw => hb _ (Posting.loan_mem_of_read hread w hw)
  split
  · exact .bind (.pure p) fun p _ => .pure _
  · exact .bind (h.flush hwrites) fun p _ => .pure _

/-- Crashes of the worker are mirrored as well. -/
theorem postGuarded (h : MirrorsLoans R served) {b : SubBatch}
    (hb : ∀ loan ∈ b.loans, served loan) (stream : JitterStream) :
    (Job.postGuarded b policy today stream : Act σ (PostOutcome × JitterStream)).Mirrors R
      (Job.postGuarded b policy today stream) := by
  refine .bind (h.post hb b.index stream).outcome fun r _ => ?_
  cases r with
  | ok done => exact .pure done
  | error f => exact .pure _

theorem postWave (h : MirrorsLoans R served) {config : JobParameters} {batches : List SubBatch}
    (hbatches : ∀ b ∈ batches, ∀ loan ∈ b.loans, served loan) (p : Job.Progress) :
    (Job.postWave config today p batches : Act σ Job.Progress).Mirrors R
      (Job.postWave config today p batches) := by
  induction batches generalizing p with
  | nil => exact .pure p
  | cons b batches ih =>
    refine .bind (h.postGuarded (hbatches b List.mem_cons_self) _) fun done _ => ?_
    exact ih (fun b hb => hbatches b (List.mem_cons_of_mem _ hb)) _

end MirrorsLoans

/-! ## Pages and connections -/

/-- A page is fetched alike where its candidates are. -/
theorem Act.Mirrors.next [BookAccess σ] [BookAccess τ] {R : σ → τ → Prop} {pager : Pager}
    (h : (BookAccess.candidates pager.cursor pager.pageSize pager.today :
      Act σ (List LoanId)).Mirrors R
        (BookAccess.candidates pager.cursor pager.pageSize pager.today)) :
    (pager.next : Act σ (Option (List LoanId) × Pager)).Mirrors R pager.next := by
  unfold Pager.next
  split
  · exact .pure _
  · exact .bind (h.map _) fun page _ => .pure _

section Connections

variable [Connections σ] [Connections τ] {R : σ → τ → Prop}

theorem Act.Mirrors.connectAs
    (h : (Connections.connect : Act σ Unit).Mirrors R Connections.connect) (role : String) :
    (Job.connectAs role : Act σ Unit).Mirrors R (Job.connectAs role) := by
  refine .bind h.attempt fun r _ => ?_
  cases r with
  | ok u => exact .pure ()
  | error e => exact fun s t hst => ⟨rfl, hst⟩

theorem Act.Mirrors.connectAll
    (h : (Connections.connect : Act σ Unit).Mirrors R Connections.connect)
    (config : JobParameters) :
    (Job.connectAll config : Act σ Unit).Mirrors R (Job.connectAll config) := by
  have hworkers (i count : Nat) :
      (Job.connectWorkers i count : Act σ Unit).Mirrors R (Job.connectWorkers i count) := by
    induction count generalizing i with
    | zero => exact .pure ()
    | succ count ih => exact .bind (h.connectAs _) fun _ _ => ih (i + 1)
  exact .bind (h.connectAs _) fun _ _ => hworkers 0 config.workers

end Connections

end LoanArrears
