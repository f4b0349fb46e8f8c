-- SUMMARY: The full recompute: clearing and bulk insert, then page after page of candidates posted by the workers.
import LoanArrears.Job.Parameters
import LoanArrears.Job.Pager
import LoanArrears.Job.Report

/-!
# The full recompute

The bulk pass clears the arrears table and adds the rows of all loans that are
aged off their live schedule. The streaming pass pages through the others: a
page is cut into a sub-batch for each worker, and the next one is looked at when
all of them are done. Sub-batches of a page have no loan in common, so they are
posted here one after the other.

A run always answers a report, also if sub-batches failed. It ends with an error
if a connection, a statement of the bulk pass or a fetch fails. Its phase is
idle afterwards; only a crash leaves it where it was.
-/

namespace LoanArrears

inductive Phase where
  | idle
  | bulkPass
  | streamingPass
  | draining
deriving DecidableEq

namespace Phase

def all : List Phase :=
  [.idle, .bulkPass, .streamingPass, .draining]

def name : Phase → String
  | .idle => "Idle"
  | .bulkPass => "BulkPass"
  | .streamingPass => "StreamingPass"
  | .draining => "Draining"

end Phase

/-- A job over a store. -/
structure Job (σ : Type) where
  config : JobParameters
  today : Date
  phase : Phase
  store : σ

namespace Job

/-- A job with valid parameters that did not run yet. -/
def new (config : JobParameters) (today : Date) (store : σ) : Except Error (Job σ) := do
  config.validate
  return ⟨config, today, .idle, store⟩

def onStore (a : Act σ α) : Act (Job σ) α :=
  a.zoom (·.store) fun store j => { j with store }

def enter (phase : Phase) : Act (Job σ) Unit :=
  modify fun j => { j with phase }

/-! ## Waves -/

/-- Post a sub-batch; a crash of the worker is a failure of the sub-batch. -/
def postGuarded [BookAccess σ] [ArrearsAccess σ] (b : SubBatch) (policy : RetryPolicy)
    (today : Date) (stream : JitterStream) : Act σ (PostOutcome × JitterStream) := do
  match ← (b.post policy today b.index stream).outcome with
  | .ok done => return done
  | .error _ =>
    let o := PostOutcome.ofBatch b b.index
    return ({ o with failure := some (.workerCrashed b.index) }, stream)

/-- The report so far, and the streams of the workers. -/
structure Progress where
  report : RunReport
  streams : List JitterStream

/-- Post the sub-batches of a page, each by the worker of its index. -/
def postWave [BookAccess σ] [ArrearsAccess σ] (config : JobParameters) (today : Date) :
    Progress → List SubBatch → Act σ Progress
  | p, [] => return p
  | p, b :: rest => do
    let stream := p.streams.getD b.index (.ofWorker config.jitterSeed b.index)
    let (o, stream) ← postGuarded b config.retry today stream
    postWave config today ⟨p.report.addOutcome o, p.streams.set b.index stream⟩ rest

/-- A crash in the thread that fetches the pages is seen when it is waited for. -/
def fetchPage [BookAccess σ] (pager : Pager) :
    Act (Job σ) (Option (List LoanId) × Pager) := do
  match ← (onStore pager.next).outcome with
  | .ok next => return next
  | .error (.error e) => Act.fail e
  | .error (.crash _) =>
    enter .draining
    Act.crash .prefetchCrashed

/-- Post page after page, at most `limit` of them. -/
def streamPages [BookAccess σ] [ArrearsAccess σ] (p : Progress) (pager : Pager) :
    Nat → Act (Job σ) RunReport
  | 0 => return p.report
  | limit + 1 => do
    match ← fetchPage pager with
    | (none, _) => return p.report
    | (some page, pager) =>
      let job ← get
      let wave := SubBatch.ofPage page job.config.workers job.config.batchSize
      let p := { p with report := p.report.countPage wave.length }
      let p ← onStore (postWave job.config job.today p wave)
      streamPages p pager limit

/-! ## Passes -/

variable [BookAccess σ] [ArrearsAccess σ] [Connections σ]

def connectAs (role : String) : Act σ Unit := do
  match ← Act.attempt Connections.connect with
  | .ok _ => return ()
  | .error e => Act.fail (.couldNotConnect role e)

/-- Connect the workers from `i` on. -/
def connectWorkers (i : Nat) : Nat → Act σ Unit
  | 0 => return ()
  | count + 1 => do
    connectAs ("worker " ++ toString i)
    connectWorkers (i + 1) count

def runBulkPass (r : RunReport) : Act (Job σ) RunReport := do
  enter .bulkPass
  let today := (← get).today
  onStore do
    Connections.connect
    let rowsCleared ← ArrearsAccess.reset
    let bulkRows ← ArrearsAccess.bulkInsert today
    return { r with rowsCleared, bulkRows }

def runStreamingPass (r : RunReport) : Act (Job σ) RunReport := do
  enter .streamingPass
  let job ← get
  onStore do
    connectAs "prefetch"
    connectWorkers 0 job.config.workers
  let streams := (List.range job.config.workers).map (.ofWorker job.config.jitterSeed ·)
  let r ← streamPages ⟨r, streams⟩ (.new job.today job.config.pageSize) Pager.pageLimit
  enter .draining
  return r

/-- Run both passes. -/
def run : Act (Job σ) RunReport := do
  let report := RunReport.new (← get).today
  let r ← Act.attempt do runStreamingPass (← runBulkPass report)
  enter .idle
  match r with
  | .ok report => return report
  | .error e => Act.fail e

end Job

end LoanArrears
