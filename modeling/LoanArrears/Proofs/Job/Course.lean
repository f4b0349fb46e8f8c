-- SUMMARY: The course of a run on any store: the pages that were posted, the outcomes of their sub-batches, and the fault that ended it; what the run answers for it.
import LoanArrears.Proofs.Book.Writes
import LoanArrears.Proofs.Job.Run
import LoanArrears.Store.Faults

/-!
# The course of a run

A `Course` holds what a run came to: the counts of the bulk pass, the pages that were posted with
the outcomes of their sub-batches, and the fault that ended the run, if one did.
`Course.Happened` ties it to the stores before and after. A posting has no faults of its own, so
every run has a course, and its answer is the report of the course or the fault. Failed
sub-batches are in the report only, so a fault behind them drops them.
-/

namespace LoanArrears

/-! ## Courses -/

/-- A page that was fetched, and the outcomes of its sub-batches. -/
structure PostedPage where
  ids : List LoanId
  outcomes : List PostOutcome

structure Course where
  /-- Rows that were cleared, and rows that were added in bulk. -/
  cleared : Nat
  bulkRows : Nat
  pages : List PostedPage
  /-- The fault that ended the run. -/
  fault : Option Fault

/-- The entry of a failed sub-batch in the report. -/
def PostOutcome.failedBatch? (o : PostOutcome) : Option FailedBatch :=
  o.failure.map fun f => ⟨o.subBatch, o.firstId, o.lastId, f⟩

namespace Course

/-- The outcomes of all sub-batches, in the order in which they come. -/
def outcomes (c : Course) : List PostOutcome :=
  c.pages.flatMap (·.outcomes)

def failures (c : Course) : List FailedBatch :=
  c.outcomes.filterMap (·.failedBatch?)

/-- What the course adds up to. -/
def report (c : Course) (today : Date) : RunReport where
  today := today
  rowsCleared := c.cleared
  bulkRows := c.bulkRows
  pages := c.pages.length
  subBatches := (c.pages.map (·.outcomes.length)).sum
  streamed := (c.outcomes.map (·.loans)).sum
  upserted := (c.outcomes.map (·.upserted)).sum
  deleted := (c.outcomes.map (·.deleted)).sum
  retries := (c.outcomes.map (·.retries)).sum
  skipped := c.outcomes.flatMap (·.skipped)
  failed := c.failures

end Course

/-- The answer, unless a fault keeps it back. -/
def answerUnless (answer : α) : Option Fault → Except Fault α
  | none => .ok answer
  | some f => .error f

/-- A crash in the thread that fetches the pages is seen as one of the thread. -/
def Fault.ofFetch : Fault → Fault
  | .error e => .error e
  | .crash _ => .crash .prefetchCrashed

/-! ## What happened -/

section Happened

variable [BookAccess σ] [ArrearsAccess σ]

/-- The sub-batches are posted in order, from one store to another, with these outcomes. -/
inductive WavePosted (config : JobParameters) (today : Date) :
    List JitterStream → σ → List SubBatch → List PostOutcome → List JitterStream → σ → Prop where
  | nil {streams : List JitterStream} {s : σ} : WavePosted config today streams s [] [] streams s
  | cons {streams streams' : List JitterStream} {s s₁ s' : σ} {b : SubBatch}
    {batches : List SubBatch} {o : PostOutcome} {os : List PostOutcome} {stream : JitterStream}
    (hpost : (Job.postGuarded b config.retry today
      (streams.getD b.index (.ofWorker config.jitterSeed b.index))).exec s = (.ok (o, stream), s₁))
    (hrest : WavePosted config today (streams.set b.index stream) s₁ batches os streams' s') :
    WavePosted config today streams s (b :: batches) (o :: os) streams' s'

/-- Page after page is fetched and posted, from one store to another, until the pages or the steps
    run out or a fetch ends with a fault. -/
inductive PagesPosted (config : JobParameters) (today : Date) :
    Nat → Pager → List JitterStream → σ → List PostedPage → Option Fault → σ → Prop where
  | stopped {pager : Pager} {streams : List JitterStream} {s : σ} :
    PagesPosted config today 0 pager streams s [] none s
  | drained {limit : Nat} {pager pager' : Pager} {streams : List JitterStream} {s s' : σ}
    (hnext : (pager.next).exec s = (.ok (none, pager'), s')) :
    PagesPosted config today (limit + 1) pager streams s [] none s'
  | broken {limit : Nat} {pager : Pager} {streams : List JitterStream} {s s' : σ} {f : Fault}
    (hnext : (pager.next).exec s = (.error f, s')) :
    PagesPosted config today (limit + 1) pager streams s [] (some f.ofFetch) s'
  | posted {limit : Nat} {pager pager' : Pager} {streams streams₁ : List JitterStream}
    {s s₁ s₂ s' : σ} {page : List LoanId} {os : List PostOutcome} {pages : List PostedPage}
    {fault : Option Fault} (hnext : (pager.next).exec s = (.ok (some page, pager'), s₁))
    (hwave : WavePosted config today streams s₁
      (SubBatch.ofPage page config.workers config.batchSize) os streams₁ s₂)
    (hrest : PagesPosted config today limit pager' streams₁ s₂ pages fault s') :
    PagesPosted config today (limit + 1) pager streams s (⟨page, os⟩ :: pages) fault s'

variable [Connections σ]

/-- The streams that the workers start with. -/
def JobParameters.streams (config : JobParameters) : List JitterStream :=
  (List.range config.workers).map (.ofWorker config.jitterSeed ·)

/-- A run has this course, from one store to another. -/
inductive Course.Happened (config : JobParameters) (today : Date) (s : σ) :
    Course → σ → Prop where
  | unfilled {s' : σ} {f : Fault} (hbulk : (Job.bulkWork today).exec s = (.error f, s')) :
    Happened config today s ⟨0, 0, [], some f⟩ s'
  | unstaffed {s₁ s' : σ} {cleared bulkRows : Nat} {f : Fault}
    (hbulk : (Job.bulkWork today).exec s = (.ok (cleared, bulkRows), s₁))
    (hconnect : (Job.connectAll config).exec s₁ = (.error f, s')) :
    Happened config today s ⟨cleared, bulkRows, [], some f⟩ s'
  | streamed {s₁ s₂ s' : σ} {cleared bulkRows : Nat} {pages : List PostedPage}
    {fault : Option Fault} (hbulk : (Job.bulkWork today).exec s = (.ok (cleared, bulkRows), s₁))
    (hconnect : (Job.connectAll config).exec s₁ = (.ok (), s₂))
    (hpages : PagesPosted config today Pager.pageLimit (.new today config.pageSize) config.streams
      s₂ pages fault s') :
    Happened config today s ⟨cleared, bulkRows, pages, fault⟩ s'

end Happened

/-! ## Every run has a course -/

section Exists

variable [BookAccess σ] [ArrearsAccess σ]

namespace Job

/-- A guarded posting always has an outcome. -/
theorem exists_exec_postGuarded (b : SubBatch) (policy : RetryPolicy) (today : Date)
    (stream : JitterStream) (s : σ) :
    ∃ o stream' s', (postGuarded b policy today stream).exec s = (.ok (o, stream'), s') := by
  have houtcome := Act.exec_outcome (b.post policy today b.index stream : Act σ _) s
  rw [postGuarded, Act.exec_bind_ok houtcome]
  rcases (b.post policy today b.index stream).exec s with ⟨f | ⟨o, stream'⟩, s'⟩
  · exact ⟨_, _, s', rfl⟩
  · exact ⟨o, stream', s', rfl⟩

end Job

variable {config : JobParameters} {today : Date}

theorem exists_wavePosted (batches : List SubBatch) (streams : List JitterStream) (s : σ) :
    ∃ os streams' s', WavePosted config today streams s batches os streams' s' := by
  induction batches generalizing streams s with
  | nil => exact ⟨[], streams, s, .nil⟩
  | cons b batches ih =>
    obtain ⟨o, stream, s₁, hpost⟩ := Job.exists_exec_postGuarded b config.retry today
      (streams.getD b.index (.ofWorker config.jitterSeed b.index)) s
    obtain ⟨os, streams', s', hrest⟩ := ih (streams.set b.index stream) s₁
    exact ⟨o :: os, streams', s', .cons hpost hrest⟩

theorem exists_pagesPosted (limit : Nat) (pager : Pager) (streams : List JitterStream) (s : σ) :
    ∃ pages fault s', PagesPosted config today limit pager streams s pages fault s' := by
  induction limit generalizing pager streams s with
  | zero => exact ⟨[], none, s, .stopped⟩
  | succ limit ih =>
    rcases hnext : (pager.next : Act σ _).exec s with ⟨f | ⟨_ | page, pager'⟩, s₁⟩
    · exact ⟨[], _, s₁, .broken hnext⟩
    · exact ⟨[], none, s₁, .drained hnext⟩
    · obtain ⟨os, streams₁, s₂, hwave⟩ := @exists_wavePosted _ _ _ config today
        (SubBatch.ofPage page config.workers config.batchSize) streams s₁
      obtain ⟨pages, fault, s', hrest⟩ := ih pager' streams₁ s₂
      exact ⟨_, fault, s', .posted hnext hwave hrest⟩

theorem Course.exists_happened [Connections σ] (config : JobParameters) (today : Date) (s : σ) :
    ∃ (c : Course) (s' : σ), c.Happened config today s s' := by
  rcases hbulk : (Job.bulkWork today : Act σ (Nat × Nat)).exec s with ⟨f | ⟨cleared, bulkRows⟩, s₁⟩
  · exact ⟨_, s₁, .unfilled hbulk⟩
  rcases hconnect : (Job.connectAll config : Act σ Unit).exec s₁ with ⟨f | ⟨⟩, s₂⟩
  · exact ⟨_, s₂, .unstaffed hbulk hconnect⟩
  obtain ⟨pages, fault, s', hpages⟩ :=
    exists_pagesPosted Pager.pageLimit (.new today config.pageSize) config.streams s₂
  exact ⟨_, s', .streamed hbulk hconnect hpages⟩

end Exists

/-! ## Reports add up -/

namespace RunReport

/-- The report after more outcomes. -/
def addOutcomes (r : RunReport) (os : List PostOutcome) : RunReport :=
  { r with
    streamed := r.streamed + (os.map (·.loans)).sum
    upserted := r.upserted + (os.map (·.upserted)).sum
    deleted := r.deleted + (os.map (·.deleted)).sum
    retries := r.retries + (os.map (·.retries)).sum
    skipped := r.skipped ++ os.flatMap (·.skipped)
    failed := r.failed ++ os.filterMap (·.failedBatch?) }

/-- The report after more pages. -/
def addPages (r : RunReport) (pages : List PostedPage) : RunReport :=
  { r.addOutcomes (pages.flatMap (·.outcomes)) with
    pages := r.pages + pages.length
    subBatches := r.subBatches + (pages.map (·.outcomes.length)).sum }

theorem addOutcomes_nil (r : RunReport) : r.addOutcomes [] = r := by
  simp [addOutcomes]

theorem addOutcomes_cons (r : RunReport) (o : PostOutcome) (os : List PostOutcome) :
    r.addOutcomes (o :: os) = (r.addOutcome o).addOutcomes os := by
  have hfailed : (o :: os).filterMap (·.failedBatch?) =
      o.failedBatch?.toList ++ os.filterMap (·.failedBatch?) := by
    cases hbatch : o.failedBatch? <;> simp [hbatch]
  rw [addOutcomes, hfailed]
  simp [addOutcomes, addOutcome, PostOutcome.failedBatch?, Nat.add_assoc]

theorem addPages_nil (r : RunReport) : r.addPages [] = r :=
  r.addOutcomes_nil

theorem addPages_cons (r : RunReport) (page : PostedPage) (pages : List PostedPage) :
    r.addPages (page :: pages) =
      ((r.countPage page.outcomes.length).addOutcomes page.outcomes).addPages pages := by
  simp only [addPages, addOutcomes, countPage, List.flatMap_cons, List.map_append,
    List.sum_append, List.flatMap_append, List.filterMap_append, List.map_cons, List.sum_cons,
    List.length_cons, Nat.add_assoc, List.append_assoc, Nat.add_comm 1]

/-- The pages of a course are added to the counts of the bulk pass. -/
theorem addPages_eq_report (c : Course) (today : Date) :
    ({ RunReport.new today with rowsCleared := c.cleared, bulkRows := c.bulkRows }).addPages
      c.pages = c.report today := by
  simp [addPages, addOutcomes, new, Course.report, Course.outcomes, Course.failures]

end RunReport

/-! ## The answer of a run -/

section Run

variable [BookAccess σ] [ArrearsAccess σ] {config : JobParameters} {today : Date}
  {streams streams' : List JitterStream} {s s' : σ}

theorem WavePosted.exec_postWave {batches : List SubBatch} {os : List PostOutcome}
    (h : WavePosted config today streams s batches os streams' s') (r : RunReport) :
    (Job.postWave config today ⟨r, streams⟩ batches).exec s =
      (.ok ⟨r.addOutcomes os, streams'⟩, s') := by
  induction h generalizing r with
  | nil =>
    rw [RunReport.addOutcomes_nil]
    rfl
  | cons hpost hrest ih =>
    rw [Job.postWave, Act.exec_bind_ok hpost, RunReport.addOutcomes_cons]
    exact ih _

theorem WavePosted.length_eq {batches : List SubBatch} {os : List PostOutcome}
    (h : WavePosted config today streams s batches os streams' s') :
    os.length = batches.length := by
  induction h with
  | nil => rfl
  | cons hpost hrest ih => rw [List.length_cons, List.length_cons, ih]

namespace Job

variable {phase : Phase}

omit [ArrearsAccess σ] in
/-- A fetch that ends with a fault ends the run with what is seen of it. -/
theorem exec_fetchPage_error {pager : Pager} {f : Fault}
    (h : (pager.next).exec s = (.error f, s')) :
    ∃ phase', (fetchPage pager).exec ⟨config, today, phase, s⟩ =
      (.error f.ofFetch, ⟨config, today, phase', s'⟩) := by
  have houtcome := Act.exec_outcome (onStore pager.next : Act (Job σ) _) ⟨config, today, phase, s⟩
  rw [exec_onStore h] at houtcome
  rw [fetchPage, Act.exec_bind_ok houtcome]
  cases f with
  | error e => exact ⟨phase, rfl⟩
  | crash c => exact ⟨.draining, rfl⟩

end Job

theorem PagesPosted.exec_streamPages {limit : Nat} {pager : Pager} {pages : List PostedPage}
    {fault : Option Fault} (h : PagesPosted config today limit pager streams s pages fault s')
    (r : RunReport) (phase : Phase) :
    ∃ phase', (Job.streamPages ⟨r, streams⟩ pager limit).exec ⟨config, today, phase, s⟩ =
      (answerUnless (r.addPages pages) fault, ⟨config, today, phase', s'⟩) := by
  induction h generalizing r with
  | stopped => exact ⟨phase, by rw [RunReport.addPages_nil]; rfl⟩
  | drained hnext =>
    refine ⟨phase, ?_⟩
    rw [Job.streamPages, Act.exec_bind_ok (Job.exec_fetchPage hnext), RunReport.addPages_nil]
    rfl
  | broken hnext =>
    obtain ⟨phase', hfetch⟩ :=
      @Job.exec_fetchPage_error _ _ config today _ _ phase _ _ hnext
    refine ⟨phase', ?_⟩
    rw [Job.streamPages, Act.exec_bind_error hfetch]
    rfl
  | posted hnext hwave hrest ih =>
    obtain ⟨phase', hpages⟩ := ih _
    refine ⟨phase', ?_⟩
    rw [Job.streamPages, Act.exec_bind_ok (Job.exec_fetchPage hnext)]
    dsimp only
    rw [Act.exec_bind_ok (Act.exec_get _),
      Act.exec_bind_ok (Job.exec_onStore (hwave.exec_postWave _)), RunReport.addPages_cons,
      hwave.length_eq]
    exact hpages

variable [Connections σ]

namespace Job

variable {phase : Phase}

variable {s₁ : σ} {cleared bulkRows : Nat}

omit [BookAccess σ] in
theorem exec_runBulkPass_error {f : Fault} (h : (bulkWork today).exec s = (.error f, s'))
    (r : RunReport) : (runBulkPass r).exec ⟨config, today, phase, s⟩ =
      (.error f, ⟨config, today, .bulkPass, s'⟩) := by
  rw [exec_runBulkPass_eq, h]
  rfl

omit [BookAccess σ] in
theorem exec_runBulkPass_ok (h : (bulkWork today).exec s = (.ok (cleared, bulkRows), s'))
    (r : RunReport) : (runBulkPass r).exec ⟨config, today, phase, s⟩ =
      (.ok { r with rowsCleared := cleared, bulkRows }, ⟨config, today, .bulkPass, s'⟩) := by
  rw [exec_runBulkPass_eq, h]
  rfl

/-- Without its connections the streaming pass does not start. -/
theorem exec_runStreamingPass_error {f : Fault} (h : (connectAll config).exec s = (.error f, s'))
    (r : RunReport) : (runStreamingPass r).exec ⟨config, today, phase, s⟩ =
      (.error f, ⟨config, today, .streamingPass, s'⟩) := by
  have henter : (enter .streamingPass : Act (Job σ) Unit).exec ⟨config, today, phase, s⟩ =
      (.ok (), ⟨config, today, .streamingPass, s⟩) := rfl
  rw [runStreamingPass, Act.exec_bind_ok henter, Act.exec_bind_ok (Act.exec_get _)]
  exact Act.exec_bind_error (exec_onStore h)

theorem exists_exec_runStreamingPass {pages : List PostedPage} {fault : Option Fault}
    (h : (connectAll config).exec s = (.ok (), s₁))
    (hpages : PagesPosted config today Pager.pageLimit (.new today config.pageSize) config.streams
      s₁ pages fault s') (r : RunReport) (phase : Phase) :
    ∃ phase', (runStreamingPass r).exec ⟨config, today, phase, s⟩ =
      (answerUnless (r.addPages pages) fault, ⟨config, today, phase', s'⟩) := by
  have henter : (enter .streamingPass : Act (Job σ) Unit).exec ⟨config, today, phase, s⟩ =
      (.ok (), ⟨config, today, .streamingPass, s⟩) := rfl
  have hconnect : (onStore (connectAll config)).exec ⟨config, today, .streamingPass, s⟩ =
      (.ok (), ⟨config, today, .streamingPass, s₁⟩) := exec_onStore h
  obtain ⟨phase', hstream⟩ := hpages.exec_streamPages r .streamingPass
  rw [runStreamingPass, Act.exec_bind_ok henter, Act.exec_bind_ok (Act.exec_get _)]
  cases fault with
  | none =>
    refine ⟨.draining, (Act.exec_bind_ok hconnect).trans ?_⟩
    exact (Act.exec_bind_ok hstream).trans rfl
  | some f => exact ⟨phase', (Act.exec_bind_ok hconnect).trans (Act.exec_bind_error hstream)⟩

end Job

namespace Course

variable {c : Course}

/-- The bulk pass, as far as it got, and then the streaming pass. -/
theorem Happened.exists_exec_passes (h : c.Happened config today s s') (phase : Phase) :
    ∃ phase', (do Job.runStreamingPass (← Job.runBulkPass (.new today)) :
        Act (Job σ) RunReport).exec ⟨config, today, phase, s⟩ =
      (answerUnless (c.report today) c.fault, ⟨config, today, phase', s'⟩) := by
  cases h with
  | unfilled hbulk =>
    exact ⟨.bulkPass, Act.exec_bind_error (Job.exec_runBulkPass_error hbulk _)⟩
  | unstaffed hbulk hconnect =>
    exact ⟨.streamingPass, (Act.exec_bind_ok (Job.exec_runBulkPass_ok hbulk _)).trans
      (Job.exec_runStreamingPass_error hconnect _)⟩
  | @streamed s₁ s₂ _ cleared bulkRows pages fault hbulk hconnect hpages =>
    obtain ⟨phase', hstream⟩ := Job.exists_exec_runStreamingPass hconnect hpages
      { RunReport.new today with rowsCleared := cleared, bulkRows } .bulkPass
    refine ⟨phase', (Act.exec_bind_ok (Job.exec_runBulkPass_ok hbulk _)).trans ?_⟩
    rw [← RunReport.addPages_eq_report]
    exact hstream

/-- The answer of a run is the report of its course, unless a fault ended it. -/
theorem Happened.exists_exec_run (h : c.Happened config today s s') (phase : Phase) :
    ∃ phase', (Job.run : Act (Job σ) RunReport).exec ⟨config, today, phase, s⟩ =
      (answerUnless (c.report today) c.fault, ⟨config, today, phase', s'⟩) ∧
      ((∀ crash, c.fault ≠ some (.crash crash)) → phase' = .idle) := by
  obtain ⟨phase', hpasses⟩ := h.exists_exec_passes phase
  rw [Job.run, Act.exec_bind_ok (Act.exec_get _)]
  rcases hfault : c.fault with _ | (e | crash)
  · rw [hfault] at hpasses
    exact ⟨.idle, Act.exec_bind_ok (Act.exec_attempt_ok hpasses), fun _ => rfl⟩
  · rw [hfault] at hpasses
    exact ⟨.idle, Act.exec_bind_ok (Act.exec_attempt_error hpasses), fun _ => rfl⟩
  · rw [hfault] at hpasses
    exact ⟨phase', Act.exec_bind_error (Act.exec_attempt_crash hpasses),
      fun hnone => absurd rfl (hnone crash)⟩

end Course

end Run

/-! ## Failures and reports -/

theorem Course.report_succeeded_iff (c : Course) (today : Date) :
    (c.report today).succeeded ↔ c.failures = [] :=
  List.isEmpty_iff

/-- A run succeeds exactly when no sub-batch failed and no fault ended it. All failed sub-batches
    are in its report, each with its message, exactly when no fault ended it; otherwise it
    answers the fault alone. -/
theorem run_reports_failures_iff [BookAccess σ] [ArrearsAccess σ] [Connections σ] (job : Job σ) :
    ∃ (c : Course) (s : σ), c.Happened job.config job.today job.store s ∧
      ((∃ r job', (Job.run : Act (Job σ) RunReport).exec job = (.ok r, job') ∧ r.succeeded) ↔
        c.fault = none ∧ c.failures = []) ∧
      (c.failures ≠ [] →
        ((∃ r job', (Job.run : Act (Job σ) RunReport).exec job = (.ok r, job') ∧
          r.succeeded = false ∧ r.failed = c.failures ∧ r.failedCount = c.failures.length ∧
          r.errors = c.failures.map (·.message)) ↔ c.fault = none)) ∧
      ∀ f, c.fault = some f → ∃ job',
        (Job.run : Act (Job σ) RunReport).exec job = (.error f, job') := by
  obtain ⟨c, s, hc⟩ := Course.exists_happened job.config job.today job.store
  obtain ⟨phase, hrun, -⟩ := hc.exists_exec_run job.phase
  change (Job.run : Act (Job σ) RunReport).exec job = _ at hrun
  refine ⟨c, s, hc, ?_⟩
  cases hfault : c.fault with
  | none =>
    rw [hfault] at hrun
    rw [hrun]
    refine ⟨⟨?_, ?_⟩, ?_, ?_⟩
    · rintro ⟨r, job', hok, hsucceeded⟩
      cases hok
      exact ⟨rfl, (c.report_succeeded_iff _).1 hsucceeded⟩
    · rintro ⟨-, hnone⟩
      exact ⟨_, _, rfl, (c.report_succeeded_iff _).2 hnone⟩
    · intro hfailures
      have hfailed : (c.report job.today).succeeded = false :=
        Bool.eq_false_iff.2 (mt (c.report_succeeded_iff _).1 hfailures)
      exact iff_of_true ⟨_, _, rfl, hfailed, rfl, rfl, rfl⟩ rfl
    · intro f hf
      cases hf
  | some f =>
    rw [hfault] at hrun
    rw [hrun]
    refine ⟨⟨?_, ?_⟩, fun _ => ⟨?_, ?_⟩, ?_⟩
    · rintro ⟨r, job', hok, -⟩
      cases hok
    · rintro ⟨hnone, -⟩
      cases hnone
    · rintro ⟨r, job', hok, -⟩
      cases hok
    · intro hnone
      cases hnone
    · intro f' hf
      cases hf
      exact ⟨_, rfl⟩

namespace Sample

/-- A book with loan 2 alone. -/
def replayingBook : Book :=
  Book.empty.after ((writes 2).filter fun
    | .insertLoan r => r.id = 2
    | .insertSchedule _ => false
    | _ => true)

/-- One worker, and batches of one loan. -/
def single : JobParameters :=
  ⟨1, 1, .immediate 3, 42⟩

def noDisk : Error :=
  .database (.failure 10 (some "disk I/O error"))

/-- The batch of loan 2 finds no disk, and neither does the fetch after `skip` others. -/
def failingTwice (skip : Nat) : Faulty Store :=
  Faulty.ofStore ⟨some ⟨replayingBook, Table.empty⟩, false⟩
    [⟨.batch, some 2, .error noDisk, none, 0⟩, ⟨.fetch, none, .error noDisk, none, skip⟩] []

/-- What becomes of the sub-batch of loan 2. -/
def failedOutcome : PostOutcome :=
  { PostOutcome.ofBatch ⟨0, [2]⟩ 0 with failure := some (.batch noDisk) }

end Sample

/-- The sub-batch of loan 2 failed, but the run answers the error of the next fetch only. -/
theorem run_drops_failure_of_sample :
    ∃ (c : Course) (s : Faulty Store) (job job' : Job (Faulty Store)),
      Job.new Sample.single Sample.today (Sample.failingTwice 1) = .ok job ∧
      c.Happened Sample.single Sample.today (Sample.failingTwice 1) s ∧
      c.failures = [⟨0, some 2, some 2, .batch Sample.noDisk⟩] ∧
      (Job.run : Act (Job (Faulty Store)) RunReport).exec job =
        (.error (.error Sample.noDisk), job') := by
  have hbulk : (Job.bulkWork Sample.today : Act (Faulty Store) (Nat × Nat)).exec
      (Sample.failingTwice 1) = (.ok (0, 0), Sample.failingTwice 1) := rfl
  have hconnect : (Job.connectAll Sample.single : Act (Faulty Store) Unit).exec
      (Sample.failingTwice 1) = (.ok (), Sample.failingTwice 1) := rfl
  have hnext : ((Pager.new Sample.today 1).next : Act (Faulty Store) _).exec
      (Sample.failingTwice 1) =
        (.ok (some [2], ⟨Sample.today, 1, 2, false, 1, 1⟩), Sample.failingTwice 0) := by
    with_unfolding_all rfl
  have hwave : SubBatch.ofPage [2] 1 1 = [⟨0, [2]⟩] := by
    simp [SubBatch.ofPage, pieces, pieceSize]
  have hpost : (Job.postGuarded ⟨0, [2]⟩ (.immediate 3) Sample.today (.ofWorker 42 0) :
      Act (Faulty Store) (PostOutcome × JitterStream)).exec (Sample.failingTwice 0) =
        (.ok (Sample.failedOutcome, .ofWorker 42 0),
          { Sample.failingTwice 0 with loads := [(2, 1)], batches := 1 }) := by
    with_unfolding_all rfl
  have hposted : WavePosted Sample.single Sample.today Sample.single.streams
      (Sample.failingTwice 0) (SubBatch.ofPage [2] 1 1) [Sample.failedOutcome]
      (Sample.single.streams.set 0 (.ofWorker 42 0))
      { Sample.failingTwice 0 with loads := [(2, 1)], batches := 1 } := by
    rw [hwave]
    exact .cons hpost .nil
  have hbroken : ((⟨Sample.today, 1, 2, false, 1, 1⟩ : Pager).next : Act (Faulty Store) _).exec
      { Sample.failingTwice 0 with loads := [(2, 1)], batches := 1 } =
        (.error (.error Sample.noDisk),
          { Sample.failingTwice 0 with loads := [(2, 1)], batches := 1 }) := rfl
  have hcourse := Course.Happened.streamed hbulk hconnect
    (.posted hnext hposted (.broken hbroken))
  obtain ⟨phase, hrun, -⟩ := hcourse.exists_exec_run .idle
  exact ⟨_, _, _, _, rfl, hcourse, rfl, hrun⟩

end LoanArrears
