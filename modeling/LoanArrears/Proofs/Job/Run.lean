-- SUMMARY: Runs of the full recompute: when they succeed, which loans they skip, and what they leave in the arrears table.
import LoanArrears.Job.Run
import LoanArrears.Proofs.Book.Bulk
import LoanArrears.Proofs.Job.Pager
import LoanArrears.Proofs.Job.Posting
import LoanArrears.Proofs.Job.SubBatch

/-!
# Running the job

A run over a store without faults depends on the loan book only. It succeeds when the bulk
insert does, and its waves then post all candidates behind the first cursor, whatever the
borders of pages and sub-batches are. `Book.jobRow?` is the row that it leaves under a loan,
and `Book.streamed` are the loans that it posts.
-/

namespace LoanArrears

/-! ## Reports -/

/-- The report after more loans were posted: none failed, and those with bad data are skipped. -/
structure RunReport.Posts (r : RunReport) (b : Book) (today : Date) (loans : List LoanId)
    (r' : RunReport) : Prop where
  failed : r'.failed = r.failed
  skipped : ∀ l, l ∈ r'.skipped ↔ l ∈ r.skipped ∨
    l.loan ∈ loans ∧ b.entryOf l.loan today = .error (.error l.reason)

namespace RunReport.Posts

variable {r r' r'' : RunReport} {b : Book} {today : Date} {loans loans' : List LoanId}

theorem refl (r : RunReport) (b : Book) (today : Date) : r.Posts b today [] r where
  failed := rfl
  skipped l := by simp

theorem trans (h : r.Posts b today loans r') (h' : r'.Posts b today loans' r'') :
    r.Posts b today (loans ++ loans') r'' where
  failed := h'.failed.trans h.failed
  skipped l := by
    rw [h'.skipped, h.skipped, List.mem_append, or_and_right, or_assoc]

/-- The outcome of a sub-batch that did not fail. -/
theorem addOutcome {o : PostOutcome} (hfailure : o.failure = none)
    (hskipped : ∀ l, l ∈ o.skipped ↔
      l.loan ∈ loans ∧ b.entryOf l.loan today = .error (.error l.reason)) :
    r.Posts b today loans (r.addOutcome o) where
  failed := by
    rw [RunReport.addOutcome, hfailure]
    exact List.append_nil _
  skipped l := by
    rw [← hskipped l]
    exact List.mem_append

end RunReport.Posts

namespace Job

variable {b : Book} {today : Date}

/-! ## Waves -/

theorem exec_postGuarded (batch : SubBatch) (policy : RetryPolicy) (stream : JitterStream)
    (t : ArrearsTable) (hdata : b.FailsByData today batch.loans) :
    ∃ o stream', (postGuarded batch policy today stream :
        Act Store (PostOutcome × JitterStream)).exec ⟨some ⟨b, t⟩, false⟩ =
        (.ok (o, stream'), ⟨some ⟨b, t.applyAll (b.writesOf today batch.loans)⟩, false⟩) ∧
      o.failure = none ∧
      ∀ l, l ∈ o.skipped ↔
        l.loan ∈ batch.loans ∧ b.entryOf l.loan today = .error (.error l.reason) := by
  obtain ⟨o, stream', hpost, houtcome⟩ :=
    batch.exec_post policy batch.index stream t hdata
  refine ⟨o, stream', ?_, houtcome⟩
  have hguarded := Act.exec_outcome (batch.post policy today batch.index stream :
    Act Store (PostOutcome × JitterStream)) ⟨some ⟨b, t⟩, false⟩
  rw [hpost] at hguarded
  exact Act.exec_bind_ok hguarded

theorem exec_postWave (config : JobParameters) (batches : List SubBatch) (p : Progress)
    (t : ArrearsTable) (hdata : b.FailsByData today (batches.flatMap (·.loans))) :
    ∃ p', (postWave config today p batches : Act Store Progress).exec ⟨some ⟨b, t⟩, false⟩ =
        (.ok p', ⟨some ⟨b, t.applyAll (b.writesOf today (batches.flatMap (·.loans)))⟩, false⟩) ∧
      p.report.Posts b today (batches.flatMap (·.loans)) p'.report := by
  induction batches generalizing p t with
  | nil => exact ⟨p, rfl, .refl p.report b today⟩
  | cons batch rest ih =>
    rw [List.flatMap_cons] at hdata ⊢
    obtain ⟨o, stream, hpost, hfailure, hskipped⟩ := exec_postGuarded batch config.retry
      (p.streams.getD batch.index (.ofWorker config.jitterSeed batch.index)) t
      fun id hid => hdata id (List.mem_append_left _ hid)
    obtain ⟨p', hrest, hposts⟩ := ih
      ⟨p.report.addOutcome o, p.streams.set batch.index stream⟩
      (t.applyAll (b.writesOf today batch.loans))
      fun id hid => hdata id (List.mem_append_right _ hid)
    refine ⟨p', ?_, .trans (.addOutcome hfailure hskipped) hposts⟩
    rw [postWave, Act.exec_bind_ok hpost]
    dsimp only
    rw [hrest, Book.applyAll_writesOf_append]

/-! ## Pages -/

variable {config : JobParameters} {phase : Phase}

theorem exec_onStore {a : Act σ α} {s t : σ} {r : Except Fault α} (h : a.exec s = (r, t)) :
    (onStore a).exec ⟨config, today, phase, s⟩ = (r, ⟨config, today, phase, t⟩) := by
  rw [onStore, Act.exec_zoom]
  simp only [h]

theorem exec_fetchPage [BookAccess σ] {pager pager' : Pager} {page? : Option (List LoanId)}
    {s t : σ} (h : (pager.next).exec s = (.ok (page?, pager'), t)) :
    (fetchPage pager).exec ⟨config, today, phase, s⟩ =
      (.ok (page?, pager'), ⟨config, today, phase, t⟩) := by
  have hnext := Act.exec_outcome (onStore pager.next : Act (Job σ) _) ⟨config, today, phase, s⟩
  rw [exec_onStore h] at hnext
  exact Act.exec_bind_ok hnext

/-- With enough steps, all that the pager has to hand out is posted. -/
theorem exec_streamPages {pager : Pager} (hsize : 1 ≤ pager.pageSize)
    (htoday : pager.today = today) {limit : Nat} (hlimit : (pager.rest b).length ≤ limit)
    (hdata : b.FailsByData today (pager.rest b)) (p : Progress) (t : ArrearsTable) :
    ∃ r, (streamPages p pager limit : Act (Job Store) RunReport).exec
        ⟨config, today, phase, ⟨some ⟨b, t⟩, false⟩⟩ =
        (.ok r, ⟨config, today, phase,
          ⟨some ⟨b, t.applyAll (b.writesOf today (pager.rest b))⟩, false⟩⟩) ∧
      p.report.Posts b today (pager.rest b) r := by
  induction limit generalizing pager p t with
  | zero =>
    rw [List.length_eq_zero_iff.1 (Nat.le_zero.1 hlimit)]
    exact ⟨p.report, rfl, .refl p.report b today⟩
  | succ limit ih =>
    obtain ⟨page?, pager', hnext, htoday', hsize', hpage⟩ :=
      @Pager.exists_next ⟨some ⟨b, t⟩, false⟩ b ⟨t, rfl⟩ pager hsize
    rw [streamPages, Act.exec_bind_ok (exec_fetchPage hnext)]
    cases page? with
    | none =>
      have hempty : pager.rest b = [] := hpage
      rw [hempty]
      exact ⟨p.report, rfl, .refl p.report b today⟩
    | some page =>
      obtain ⟨hne, hsplit⟩ := hpage
      rw [hsplit] at hdata hlimit ⊢
      have hlimit' : (pager'.rest b).length ≤ limit := by
        have hpos : 0 < page.length := List.length_pos_iff.2 hne
        rw [List.length_append] at hlimit
        omega
      obtain ⟨p₁, hwave, hposts⟩ := exec_postWave config
        (SubBatch.ofPage page config.workers config.batchSize)
        ⟨p.report.countPage (SubBatch.ofPage page config.workers config.batchSize).length,
          p.streams⟩ t (by
          rw [SubBatch.flatMap_ofPage]
          exact fun id hid => hdata id (List.mem_append_left _ hid))
      rw [SubBatch.flatMap_ofPage] at hwave hposts
      obtain ⟨r, hpages, hposts'⟩ := ih (hsize' ▸ hsize) (htoday'.trans htoday) hlimit'
        (fun id hid => hdata id (List.mem_append_right _ hid)) p₁
        (t.applyAll (b.writesOf today page))
      refine ⟨r, ?_, ?_⟩
      · dsimp only
        rw [Act.exec_bind_ok (Act.exec_get _), Act.exec_bind_ok (exec_onStore hwave), hpages,
          Book.applyAll_writesOf_append]
      · exact .trans ⟨hposts.failed, hposts.skipped⟩ hposts'

/-! ## Passes -/

theorem exec_connectWorkers (i count : Nat) (s : Store) :
    (connectWorkers i count : Act Store Unit).exec s = (.ok (), s) := by
  induction count generalizing i with
  | zero => rfl
  | succ count ih =>
    have hconnect : (connectAs ("worker " ++ toString i) : Act Store Unit).exec s = (.ok (), s) :=
      rfl
    rw [connectWorkers, Act.exec_bind_ok hconnect]
    exact ih (i + 1)

theorem exec_bulkInsert (today : Date) (t : ArrearsTable) :
    (ArrearsAccess.bulkInsert today : Act Store Nat).exec ⟨some ⟨b, t⟩, false⟩ =
      match b.bulkInsert today t with
      | .ok (n, t') => (.ok n, ⟨some ⟨b, t'⟩, false⟩)
      | .error e => (.error (.error e), ⟨some ⟨b, t⟩, false⟩) := by
  refine (Store.exec_changing _ _).trans ?_
  simp only [Store.update, Act.exec_ofExec]
  cases b.bulkInsert today t <;> rfl

/-- The work of the bulk pass: the rows that it clears, and the rows that it adds. -/
def bulkWork [ArrearsAccess σ] [Connections σ] (today : Date) : Act σ (Nat × Nat) := do
  Connections.connect
  let cleared ← ArrearsAccess.reset
  let bulkRows ← ArrearsAccess.bulkInsert today
  return (cleared, bulkRows)

/-- The connections of the streaming pass. -/
def connectAll [Connections σ] (config : JobParameters) : Act σ Unit := do
  connectAs "prefetch"
  connectWorkers 0 config.workers

/-- The bulk pass is its work, with the counts in the report. -/
theorem exec_runBulkPass_eq [ArrearsAccess σ] [Connections σ] (r : RunReport) (s : σ) :
    (runBulkPass r).exec ⟨config, today, phase, s⟩ =
      (((bulkWork today).exec s).1.map fun x => { r with rowsCleared := x.1, bulkRows := x.2 },
        ⟨config, today, .bulkPass, ((bulkWork today).exec s).2⟩) := by
  have henter : (enter .bulkPass : Act (Job σ) Unit).exec ⟨config, today, phase, s⟩ =
      (.ok (), ⟨config, today, .bulkPass, s⟩) := rfl
  have hwork : (do
      Connections.connect
      let rowsCleared ← ArrearsAccess.reset
      let bulkRows ← ArrearsAccess.bulkInsert today
      return { r with rowsCleared, bulkRows } : Act σ RunReport) =
      (fun x => { r with rowsCleared := x.1, bulkRows := x.2 }) <$> bulkWork today := by
    simp only [bulkWork, map_bind, map_pure]
  rw [runBulkPass, Act.exec_bind_ok henter, Act.exec_bind_ok (Act.exec_get _)]
  refine exec_onStore ?_
  rw [hwork, Act.exec_map]

/-- The rows are inserted into a table that was cleared. -/
theorem exec_bulkWork (today : Date) (t : ArrearsTable) :
    (bulkWork today : Act Store (Nat × Nat)).exec ⟨some ⟨b, t⟩, false⟩ =
      match b.bulkInsert today Table.empty with
      | .ok (n, t') => (.ok (t.size, n), ⟨some ⟨b, t'⟩, false⟩)
      | .error e => (.error (.error e), ⟨some ⟨b, Table.empty⟩, false⟩) := by
  have hconnect : (Connections.connect : Act Store Unit).exec ⟨some ⟨b, t⟩, false⟩ =
      (.ok (), ⟨some ⟨b, t⟩, false⟩) := rfl
  have hreset : (ArrearsAccess.reset : Act Store Nat).exec ⟨some ⟨b, t⟩, false⟩ =
      (.ok t.size, ⟨some ⟨b, Table.empty⟩, false⟩) := Store.exec_changing _ _
  have hinsert := exec_bulkInsert (b := b) today Table.empty
  rw [bulkWork, Act.exec_bind_ok hconnect, Act.exec_bind_ok hreset]
  cases hbulk : b.bulkInsert today Table.empty with
  | error e =>
    rw [hbulk] at hinsert
    exact Act.exec_bind_error hinsert
  | ok done =>
    rw [hbulk] at hinsert
    exact Act.exec_bind_ok hinsert

theorem exec_runBulkPass (r : RunReport) (t : ArrearsTable) :
    (runBulkPass r : Act (Job Store) RunReport).exec ⟨config, today, phase, ⟨some ⟨b, t⟩, false⟩⟩ =
      match b.bulkInsert today Table.empty with
      | .ok (n, t') => (.ok { r with rowsCleared := t.size, bulkRows := n },
        ⟨config, today, .bulkPass, ⟨some ⟨b, t'⟩, false⟩⟩)
      | .error e => (.error (.error e),
        ⟨config, today, .bulkPass, ⟨some ⟨b, Table.empty⟩, false⟩⟩) := by
  rw [exec_runBulkPass_eq, exec_bulkWork]
  cases b.bulkInsert today Table.empty <;> rfl

theorem exec_connectAll (config : JobParameters) (s : Store) :
    (connectAll config : Act Store Unit).exec s = (.ok (), s) := by
  have hprefetch : (connectAs "prefetch" : Act Store Unit).exec s = (.ok (), s) := rfl
  rw [connectAll, Act.exec_bind_ok hprefetch, exec_connectWorkers]

end Job

/-- The loans that a run posts: the candidates behind the first cursor. -/
def Book.streamed (b : Book) (today : Date) : List LoanId :=
  (b.candidateIds today).filter (0 < ·)

/-- What a run leaves under a loan: its entry, if it is posted and has one, or else what the
    bulk insert left. -/
def Book.jobRow? (b : Book) (today : Date) (id : LoanId) : Option ArrearsEntry :=
  match b.entryOf id today with
  | .ok e => if id ∈ b.streamed today then e else b.bulkRow? today id
  | .error _ => b.bulkRow? today id

namespace Job

variable {b : Book} {today : Date} {config : JobParameters} {phase : Phase}

theorem exec_runStreamingPass (hids : ∀ id l, b.loans.find? id = some l → id < Bound.int64)
    (hdata : b.FailsByData today (b.streamed today)) (r : RunReport) (t : ArrearsTable) :
    ∃ r', (runStreamingPass r : Act (Job Store) RunReport).exec
        ⟨config, today, phase, ⟨some ⟨b, t⟩, false⟩⟩ =
        (.ok r', ⟨config, today, .draining,
          ⟨some ⟨b, t.applyAll (b.writesOf today (b.streamed today))⟩, false⟩⟩) ∧
      r.Posts b today (b.streamed today) r' := by
  have henter : (enter .streamingPass : Act (Job Store) Unit).exec
      ⟨config, today, phase, ⟨some ⟨b, t⟩, false⟩⟩ =
      (.ok (), ⟨config, today, .streamingPass, ⟨some ⟨b, t⟩, false⟩⟩) := rfl
  have hpager : (Pager.new today config.pageSize).rest b = b.streamed today := rfl
  have hlimit := Nat.le_of_lt
    (@Pager.length_rest_lt b hids (.new today config.pageSize) (Int.le_refl 0))
  obtain ⟨r', hstream, hposts⟩ := @exec_streamPages b today config .streamingPass
    (.new today config.pageSize) (Nat.le_max_right config.pageSize 1) rfl Pager.pageLimit hlimit
    hdata ⟨r, (List.range config.workers).map (.ofWorker config.jitterSeed ·)⟩ t
  refine ⟨r', ?_, hposts⟩
  rw [runStreamingPass, Act.exec_bind_ok henter, Act.exec_bind_ok (Act.exec_get _)]
  refine (Act.exec_bind_ok (exec_onStore (exec_connectAll config _))).trans ?_
  exact (Act.exec_bind_ok hstream).trans rfl

/-! ## Runs -/

/-- A run succeeds when the bulk insert accepts the book and what goes wrong with the loans that
    are posted is bad data. -/
theorem exists_run (hids : ∀ id l, b.loans.find? id = some l → id < Bound.int64)
    (hbulk : b.BulkAccepts today) (hdata : b.FailsByData today (b.streamed today))
    (t : ArrearsTable) :
    ∃ report t', (run : Act (Job Store) RunReport).exec
        ⟨config, today, phase, ⟨some ⟨b, t⟩, false⟩⟩ =
        (.ok report, ⟨config, today, .idle, ⟨some ⟨b, t'⟩, false⟩⟩) ∧
      report.failed = [] ∧
      (∀ l, l ∈ report.skipped ↔
        l.loan ∈ b.streamed today ∧ b.entryOf l.loan today = .error (.error l.reason)) ∧
      ∀ id, t'.find? id = b.jobRow? today id := by
  obtain ⟨n, t₁, hinsert, hrows⟩ := Book.exists_bulkInsert hbulk
  have hpass := @exec_runBulkPass b today config phase (.new today) t
  rw [hinsert] at hpass
  obtain ⟨report, hstream, hposts⟩ := @exec_runStreamingPass b today config .bulkPass hids hdata
    { RunReport.new today with rowsCleared := t.size, bulkRows := n } t₁
  refine ⟨report, t₁.applyAll (b.writesOf today (b.streamed today)), ?_, hposts.failed, ?_, ?_⟩
  · have hpasses := Act.exec_attempt_ok ((Act.exec_bind_ok hpass).trans hstream)
    rw [run, Act.exec_bind_ok (Act.exec_get _), Act.exec_bind_ok hpasses]
    rfl
  · intro l
    rw [hposts.skipped]
    exact or_iff_right List.not_mem_nil
  · intro id
    rw [Book.find?_applyAll_writesOf, hrows]
    unfold Book.jobRow?
    cases b.entryOf id today <;> rfl

/-- A loan whose entry cannot be made by the bulk insert ends the run with an error. -/
theorem exists_run_eq_error (hbulk : ¬ b.BulkAccepts today) (t : ArrearsTable) :
    ∃ e s, (run : Act (Job Store) RunReport).exec ⟨config, today, phase, ⟨some ⟨b, t⟩, false⟩⟩ =
      (.error (.error e), s) := by
  obtain ⟨e, hinsert⟩ := Book.exists_bulkInsert_eq_error hbulk
  have hpass := @exec_runBulkPass b today config phase (.new today) t
  rw [hinsert] at hpass
  have hpasses := Act.exec_attempt_error (Act.exec_bind_error
    (f := fun r => (runStreamingPass r : Act (Job Store) RunReport)) hpass)
  refine ⟨e, ⟨config, today, .idle, ⟨some ⟨b, Table.empty⟩, false⟩⟩, ?_⟩
  rw [run, Act.exec_bind_ok (Act.exec_get _), Act.exec_bind_ok hpasses]
  rfl

end Job

end LoanArrears
