-- SUMMARY: Fetching pages ahead while earlier ones are posted: however far the fetches are ahead, the streaming of the pages comes to the same.
import LoanArrears.Proofs.Job.Course
import LoanArrears.Proofs.Job.Mirroring
import LoanArrears.Proofs.Store.Commuting

/-!
# Fetching ahead

A `Pipeline` is the streaming of pages under way: a thread fetches pages into a queue of limited
length, while the sub-batches of the pages in front are posted. `Pipeline.takeTurn` is one step of
either side, and `Pipeline.finish` is all that is left, without fetching ahead. A turn and then all
that is left come to what was left before (`exec_takeTurn_finish`), because a fetch commutes with
the postings in front of it. So the order of the turns makes no difference to a run.
-/

namespace LoanArrears

/-! ## Fetches and waves -/

namespace FetchesApart

variable [BookAccess σ] [ArrearsAccess σ]

theorem mirrorsLoans (h : FetchesApart σ) (after : LoanId) (pageSize : Nat) (today : Date)
    (r : Except Fault (List LoanId)) :
    MirrorsLoans (fun s t : σ => (BookAccess.candidates after pageSize today).exec s = (r, t))
      fun _ => True where
  terms loan _ := h.terms loan after pageSize today r
  served_terms _ _ _ _ _ _ := trivial
  plannedInstallments loan _ := h.plannedInstallments loan after pageSize today r
  liveInstallments loan _ := h.liveInstallments loan after pageSize today r
  consumption loan _ := h.consumption loan after pageSize today r
  write w _ := h.write w after pageSize today r
  writeBatch ws _ := h.writeBatch ws after pageSize today r

/-- The next page is the same one before and behind a wave. -/
theorem commutes_next (h : FetchesApart σ) (pager : Pager) (config : JobParameters) (today : Date)
    (p : Job.Progress) (batches : List SubBatch) :
    (pager.next : Act σ (Option (List LoanId) × Pager)).Commutes
      (Job.postWave config today p batches : Act σ Job.Progress) := by
  refine Act.Commutes.symm ?_
  unfold Pager.next
  split
  · exact .pure _
  · have hfetch : (BookAccess.candidates pager.cursor pager.pageSize pager.today :
        Act σ (List LoanId)).Commutes (Job.postWave config today p batches) :=
      fun r => (h.mirrorsLoans _ _ _ r).postWave (fun _ _ _ _ => trivial) p
    exact .bind (fun r => (hfetch.symm r).map _) fun page => .pure _

end FetchesApart

/-! ## Pipelines -/

/-- The thread that fetches: it goes on with its pager, or it is at its end, with a fault or
    because there are no more pages. -/
inductive Fetching where
  | on (pager : Pager) (left : Nat)
  | off (fault : Option Fault)

/-- The thread behind a fetch with this answer. -/
def Fetching.after (left : Nat) : Except Fault (Option (List LoanId) × Pager) → Fetching
  | .ok (some _, pager) => .on pager left
  | .ok (none, _) => .off none
  | .error f => .off (some f)

/-- The page of a fetch with this answer, if it has one. -/
def pageOf : Except Fault (Option (List LoanId) × Pager) → List (List LoanId)
  | .ok (page?, _) => page?.toList
  | .error _ => []

structure Pipeline where
  progress : Job.Progress
  /-- Sub-batches of the page that is being posted. -/
  wave : List SubBatch
  /-- Pages behind it. -/
  queue : List (List LoanId)
  fetching : Fetching

namespace Pipeline

inductive Turn where
  | fetch
  | post

def start (p : Job.Progress) (pager : Pager) (limit : Nat) : Pipeline :=
  ⟨p, [], [], .on pager limit⟩

/-- Take over what was fetched. -/
def take (a : Pipeline) (left : Nat) (r : Except Fault (Option (List LoanId) × Pager)) :
    Pipeline :=
  { a with queue := a.queue ++ pageOf r, fetching := .after left r }

section Acts

variable [BookAccess σ] [ArrearsAccess σ]

/-- The fault of the thread that fetches ends the streaming. -/
def failWith (f : Fault) : Act (Job σ) α :=
  match f with
  | .error e => Act.fail e
  | .crash _ => do
    Job.enter .draining
    Act.crash .prefetchCrashed

/-- Fetch a page, if there is room for it in the queue. -/
def fetch (capacity : Nat) (a : Pipeline) : Act (Job σ) Pipeline :=
  match a.fetching with
  | .on pager (left + 1) =>
    if a.queue.length < capacity then a.take left <$> (Job.onStore pager.next).outcome
    else return a
  | _ => return a

/-- Post a sub-batch, or take the next page from the queue. -/
def post (a : Pipeline) : Act (Job σ) Pipeline := do
  let job ← get
  match a.wave, a.queue, a.fetching with
  | b :: wave, _, _ =>
    let stream := a.progress.streams.getD b.index (.ofWorker job.config.jitterSeed b.index)
    let (o, stream) ← Job.onStore (Job.postGuarded b job.config.retry job.today stream)
    let progress := ⟨a.progress.report.addOutcome o, a.progress.streams.set b.index stream⟩
    return { a with progress, wave }
  | [], page :: queue, _ =>
    let wave := SubBatch.ofPage page job.config.workers job.config.batchSize
    let progress := { a.progress with report := a.progress.report.countPage wave.length }
    return { a with progress, wave, queue }
  | [], [], .off (some f) => failWith f
  | [], [], _ => return a

def takeTurn (capacity : Nat) (a : Pipeline) : Turn → Act (Job σ) Pipeline
  | .fetch => a.fetch capacity
  | .post => a.post

/-- Post the pages of the queue, and those that are still to be fetched. -/
def drain (fetching : Fetching) : Job.Progress → List (List LoanId) → Act (Job σ) RunReport
  | p, [] =>
    match fetching with
    | .on pager left => Job.streamPages p pager left
    | .off none => return p.report
    | .off (some f) => failWith f
  | p, page :: queue => do
    let job ← get
    let wave := SubBatch.ofPage page job.config.workers job.config.batchSize
    let p := { p with report := p.report.countPage wave.length }
    let p ← Job.onStore (Job.postWave job.config job.today p wave)
    drain fetching p queue

/-- All that is left, without fetching ahead. -/
def finish (a : Pipeline) : Act (Job σ) RunReport := do
  let job ← get
  let p ← Job.onStore (Job.postWave job.config job.today a.progress a.wave)
  drain a.fetching p a.queue

end Acts

end Pipeline

/-- Stream the pages, and let fetches and postings take turns for some time. -/
def Job.streamAhead [BookAccess σ] [ArrearsAccess σ] (capacity : Nat) (turns : List Pipeline.Turn)
    (p : Job.Progress) (pager : Pager) (limit : Nat) : Act (Job σ) RunReport := do
  let a ← turns.foldlM (Pipeline.takeTurn capacity) (.start p pager limit)
  a.finish

/-! ## The order of the turns -/

namespace Pipeline

variable [BookAccess σ] [ArrearsAccess σ]

/-- A wave is always posted to its end. -/
theorem exists_exec_postWave (config : JobParameters) (today : Date) (p : Job.Progress)
    (batches : List SubBatch) (s : σ) :
    ∃ p' s', (Job.postWave config today p batches).exec s = (.ok p', s') := by
  obtain ⟨os, streams', s', hwave⟩ := @exists_wavePosted _ _ _ config today batches p.streams s
  exact ⟨_, s', hwave.exec_postWave p.report⟩

/-- A fetch may come before the pages of the queue instead of behind them. -/
theorem exec_drain_after (h : FetchesApart σ) {pager : Pager} {left : Nat} {s s' : σ}
    {r : Except Fault (Option (List LoanId) × Pager)} (hnext : (pager.next).exec s = (r, s'))
    (p : Job.Progress) (queue : List (List LoanId)) (config : JobParameters) (today : Date)
    (phase : Phase) :
    (drain (.after left r) p (queue ++ pageOf r)).exec ⟨config, today, phase, s'⟩ =
      (drain (.on pager (left + 1)) p queue).exec ⟨config, today, phase, s⟩ := by
  induction queue generalizing p s s' with
  | nil =>
    have hfetch := Act.exec_outcome (Job.onStore pager.next : Act (Job σ) _)
      ⟨config, today, phase, s⟩
    rw [Job.exec_onStore hnext] at hfetch
    rw [drain, Job.streamPages, Job.fetchPage, Act.exec_bind, Act.exec_bind_ok hfetch]
    rcases r with (e | c) | ⟨_ | page, pager'⟩
    · rfl
    · rfl
    · rfl
    · rfl
  | cons page queue ih =>
    let wave := SubBatch.ofPage page config.workers config.batchSize
    let p₁ := { p with report := p.report.countPage wave.length }
    obtain ⟨p', s₁, hwave⟩ := exists_exec_postWave config today p₁ wave s
    obtain ⟨hanswer, hnext'⟩ := h.commutes_next pager config today p₁ wave r s s' hnext
    rcases hwave' : (Job.postWave config today p₁ wave).exec s' with ⟨r', s₁'⟩
    rw [hwave, hwave'] at hanswer hnext'
    cases hanswer
    rw [List.cons_append, drain, drain, Act.exec_bind_ok (Act.exec_get _),
      Act.exec_bind_ok (Act.exec_get _)]
    dsimp only
    rw [Act.exec_bind_ok (Job.exec_onStore hwave), Act.exec_bind_ok (Job.exec_onStore hwave')]
    exact ih hnext' p'

/-- Finishing posts the wave under way, and then the pages of the queue. -/
theorem exec_finish {a : Pipeline} {job : Job σ} {p : Job.Progress} {s : σ}
    (hwave : (Job.postWave job.config job.today a.progress a.wave).exec job.store = (.ok p, s)) :
    (a.finish).exec job = (drain a.fetching p a.queue).exec { job with store := s } := by
  rw [finish, Act.exec_bind_ok (Act.exec_get _)]
  exact Act.exec_bind_ok (Job.exec_onStore hwave)

theorem exec_fetch_finish (h : FetchesApart σ) (capacity : Nat) (a : Pipeline) (job : Job σ) :
    (a.fetch capacity >>= finish : Act (Job σ) RunReport).exec job = (a.finish).exec job := by
  unfold fetch
  split
  · next pager left hfetching =>
    split
    · -- The wave under way and the pages of the queue are posted behind the fetch instead.
      rcases hnext : (pager.next).exec job.store with ⟨r, s'⟩
      obtain ⟨p, s₁, hwave⟩ :=
        exists_exec_postWave job.config job.today a.progress a.wave job.store
      obtain ⟨hanswer, hnext'⟩ :=
        h.commutes_next pager job.config job.today a.progress a.wave r job.store s' hnext
      rcases hwave' : (Job.postWave job.config job.today a.progress a.wave).exec s' with ⟨r', s₁'⟩
      rw [hwave, hwave'] at hanswer hnext'
      cases hanswer
      have hfetch : (a.take left <$> (Job.onStore pager.next).outcome : Act (Job σ) _).exec job =
          (.ok (a.take left r), { job with store := s' }) := by
        rw [Act.exec_map, Act.exec_outcome, Job.exec_onStore hnext]
        rfl
      rw [Act.exec_bind_ok hfetch, exec_finish hwave, exec_finish hwave', hfetching]
      exact exec_drain_after h hnext' p a.queue job.config job.today job.phase
    · rw [pure_bind]
  · rw [pure_bind]

theorem exec_post_finish (a : Pipeline) (job : Job σ) :
    (a.post >>= finish : Act (Job σ) RunReport).exec job = (a.finish).exec job := by
  obtain ⟨p, wave, queue, fetching⟩ := a
  cases wave with
  | cons b wave =>
    obtain ⟨o, stream, s₁, hpost⟩ := Job.exists_exec_postGuarded b job.config.retry job.today
      (p.streams.getD b.index (.ofWorker job.config.jitterSeed b.index)) job.store
    obtain ⟨p', s₂, hwave⟩ := exists_exec_postWave job.config job.today
      ⟨p.report.addOutcome o, p.streams.set b.index stream⟩ wave s₁
    have hfirst : (post ⟨p, b :: wave, queue, fetching⟩ : Act (Job σ) Pipeline).exec job =
        (.ok ⟨⟨p.report.addOutcome o, p.streams.set b.index stream⟩, wave, queue, fetching⟩,
          { job with store := s₁ }) := by
      rw [post, Act.exec_bind_ok (Act.exec_get _)]
      exact Act.exec_bind_ok (Job.exec_onStore hpost)
    rw [Act.exec_bind_ok hfirst, exec_finish hwave, exec_finish]
    exact (Act.exec_bind_ok hpost).trans hwave
  | nil =>
    have hnone (queue : List (List LoanId)) (fetching : Fetching) :
        (finish ⟨p, [], queue, fetching⟩ : Act (Job σ) RunReport).exec job =
          (drain fetching p queue).exec job := exec_finish rfl
    cases queue with
    | cons page queue =>
      let wave := SubBatch.ofPage page job.config.workers job.config.batchSize
      let p₁ := { p with report := p.report.countPage wave.length }
      obtain ⟨p', s₁, hwave⟩ :=
        exists_exec_postWave job.config job.today p₁ wave job.store
      have htaken : (post ⟨p, [], page :: queue, fetching⟩ : Act (Job σ) Pipeline).exec job =
          (.ok ⟨p₁, wave, queue, fetching⟩, job) := by
        rw [post, Act.exec_bind_ok (Act.exec_get _)]
        rfl
      rw [Act.exec_bind_ok htaken, exec_finish hwave, hnone, drain,
        Act.exec_bind_ok (Act.exec_get _)]
      have hposted : (Job.onStore (Job.postWave job.config job.today p₁ wave)).exec job =
          (.ok p', { job with store := s₁ }) := Job.exec_onStore hwave
      show _ = (Job.onStore (Job.postWave job.config job.today p₁ wave) >>=
        fun p => drain fetching p queue : Act (Job σ) RunReport).exec job
      rw [Act.exec_bind_ok hposted]
    | nil =>
      rw [post, bind_assoc, Act.exec_bind_ok (Act.exec_get _)]
      rcases fetching with ⟨pager, left⟩ | (_ | f)
      · rw [pure_bind]
      · rw [pure_bind]
      · rw [hnone, drain]
        cases f <;> rfl

/-- A turn and then all that is left are what was left before. -/
theorem exec_takeTurn_finish (h : FetchesApart σ) (capacity : Nat) (a : Pipeline) (turn : Turn)
    (job : Job σ) :
    (takeTurn capacity a turn >>= finish : Act (Job σ) RunReport).exec job =
      (a.finish).exec job := by
  cases turn with
  | fetch => exact exec_fetch_finish h capacity a job
  | post => exact exec_post_finish a job

theorem exec_takeTurns_finish (h : FetchesApart σ) (capacity : Nat) (turns : List Turn)
    (a : Pipeline) (job : Job σ) :
    (turns.foldlM (takeTurn capacity) a >>= finish : Act (Job σ) RunReport).exec job =
      (a.finish).exec job := by
  induction turns generalizing a job with
  | nil => rw [List.foldlM_nil, pure_bind]
  | cons turn turns ih =>
    have hturn := exec_takeTurn_finish h capacity a turn job
    rw [List.foldlM_cons, bind_assoc, ← hturn, Act.exec_bind, Act.exec_bind]
    rcases (takeTurn capacity a turn : Act (Job σ) Pipeline).exec job with ⟨f | a', job'⟩
    · rfl
    · exact ih a' job'

end Pipeline

/-- However fetches and postings take turns, the streaming of the pages comes to the same. -/
theorem Job.exec_streamAhead [BookAccess σ] [ArrearsAccess σ] (h : FetchesApart σ)
    (capacity : Nat) (turns : List Pipeline.Turn) (p : Job.Progress) (pager : Pager)
    (limit : Nat) (job : Job σ) :
    (Job.streamAhead capacity turns p pager limit).exec job =
      (Job.streamPages p pager limit).exec job := by
  have hnone : (Job.postWave job.config job.today p []).exec job.store = (.ok p, job.store) := rfl
  rw [Job.streamAhead, Pipeline.exec_takeTurns_finish h]
  exact Pipeline.exec_finish hnone

/-- Run both passes, and let fetches and postings take turns for some time. -/
def Job.runAhead [BookAccess σ] [ArrearsAccess σ] [Connections σ] (capacity : Nat)
    (turns : List Pipeline.Turn) : Act (Job σ) RunReport := do
  let report := RunReport.new (← get).today
  let r ← Act.attempt do
    let report ← Job.runBulkPass report
    Job.enter .streamingPass
    let job ← get
    Job.onStore (Job.connectAll job.config)
    let report ← Job.streamAhead capacity turns ⟨report, job.config.streams⟩
      (.new job.today job.config.pageSize) Pager.pageLimit
    Job.enter .draining
    return report
  Job.enter .idle
  match r with
  | .ok report => return report
  | .error e => Act.fail e

/-- Fetching ahead makes no difference to a run. -/
theorem Job.runAhead_eq_run [BookAccess σ] [ArrearsAccess σ] [Connections σ] (h : FetchesApart σ)
    (capacity : Nat) (turns : List Pipeline.Turn) :
    (Job.runAhead capacity turns : Act (Job σ) RunReport) = Job.run := by
  have hstream (p : Job.Progress) (pager : Pager) (limit : Nat) :
      (Job.streamAhead capacity turns p pager limit : Act (Job σ) RunReport) =
        Job.streamPages p pager limit :=
    funext fun job => Job.exec_streamAhead h capacity turns p pager limit job
  simp only [Job.runAhead, hstream]
  rfl

end LoanArrears
