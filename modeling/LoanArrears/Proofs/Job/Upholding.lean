-- SUMMARY: Invariants of a job's store: a run of the job upholds what every access to its store upholds, however the run ends.
import LoanArrears.Proofs.Job.Mirroring
import LoanArrears.Proofs.Store.Upholding

/-!
# Invariants of a job's store

A run clears the table, inserts, fetches pages and posts them, and any of it may fail or crash. An
invariant that every access to the store upholds is upheld by each of these steps, and so by the
whole run.
-/

namespace LoanArrears

section Waves

variable [BookAccess σ] [ArrearsAccess σ] [Connections σ] {I : σ → Prop}

theorem UpholdsAccess.mirrorsLoans (h : UpholdsAccess I) :
    MirrorsLoans (fun s t : σ => s = t ∧ I s) fun _ => True where
  toMirrorsReads := h.mirrorsReads
  write w _ := Act.Upholds.iff_mirrors.1 (h.write w)
  writeBatch ws _ := Act.Upholds.iff_mirrors.1 (h.writeBatch ws)

end Waves

namespace Job

variable {I : σ → Prop}

theorem upholds_enter (phase : Phase) :
    (enter phase : Act (Job σ) Unit).Upholds (I ·.store) :=
  fun _ h => h

theorem upholds_onStore {a : Act σ α} (h : a.Upholds I) :
    (onStore a : Act (Job σ) α).Upholds (I ·.store) :=
  h.zoom fun _ _ => rfl

variable [BookAccess σ] [ArrearsAccess σ] [Connections σ]

theorem upholds_connectAll (h : UpholdsAccess I) (config : JobParameters) :
    (connectAll config : Act σ Unit).Upholds I :=
  Act.Upholds.iff_mirrors.2 ((Act.Upholds.iff_mirrors.1 h.connect).connectAll config)

theorem upholds_postWave (h : UpholdsAccess I) (config : JobParameters) (today : Date)
    (p : Progress) (wave : List SubBatch) :
    (postWave config today p wave : Act σ Progress).Upholds I :=
  Act.Upholds.iff_mirrors.2 (h.mirrorsLoans.postWave (fun _ _ _ _ => trivial) p)

theorem upholds_next (h : UpholdsAccess I) (pager : Pager) :
    (pager.next : Act σ (Option (List LoanId) × Pager)).Upholds I :=
  Act.Upholds.iff_mirrors.2 (Act.Upholds.iff_mirrors.1 (h.candidates _ _ _)).next

theorem upholds_fetchPage (h : UpholdsAccess I) (pager : Pager) :
    (fetchPage pager : Act (Job σ) (Option (List LoanId) × Pager)).Upholds (I ·.store) := by
  refine .bind (upholds_onStore (upholds_next h pager)).outcome fun r => ?_
  match r with
  | .ok next => exact .pure next
  | .error (.error e) => exact .fail e
  | .error (.crash c) => exact .bind (upholds_enter .draining) fun _ => .crash .prefetchCrashed

theorem upholds_streamPages (h : UpholdsAccess I) (p : Progress) (pager : Pager) (limit : Nat) :
    (streamPages p pager limit : Act (Job σ) RunReport).Upholds (I ·.store) := by
  induction limit generalizing p pager with
  | zero => exact .pure p.report
  | succ limit ih =>
    refine .bind (upholds_fetchPage h pager) fun r => ?_
    match r with
    | (none, _) => exact .pure p.report
    | (some page, pager) =>
      refine .bind .get fun job => ?_
      exact .bind (upholds_onStore (upholds_postWave h _ _ _ _)) fun p => ih p pager

theorem upholds_runBulkPass (h : UpholdsAccess I) (r : RunReport) :
    (runBulkPass r : Act (Job σ) RunReport).Upholds (I ·.store) := by
  refine .bind (upholds_enter .bulkPass) fun _ => .bind .get fun job => upholds_onStore ?_
  refine .bind h.connect fun _ => .bind h.reset fun cleared => ?_
  exact .bind (h.bulkInsert job.today) fun inserted => .pure _

theorem upholds_runStreamingPass (h : UpholdsAccess I) (r : RunReport) :
    (runStreamingPass r : Act (Job σ) RunReport).Upholds (I ·.store) := by
  refine .bind (upholds_enter .streamingPass) fun _ => .bind .get fun job => ?_
  refine .bind (upholds_onStore (upholds_connectAll h job.config)) fun _ => ?_
  refine .bind (upholds_streamPages h _ _ Pager.pageLimit) fun r => ?_
  exact .bind (upholds_enter .draining) fun _ => .pure r

/-- Whatever is left undone when a run ends, the store has the invariant. -/
theorem upholds_run (h : UpholdsAccess I) :
    (run : Act (Job σ) RunReport).Upholds (I ·.store) := by
  refine .bind .get fun job => ?_
  have hpasses : (do runStreamingPass (← runBulkPass (.new job.today)) :
      Act (Job σ) RunReport).Upholds (I ·.store) :=
    .bind (upholds_runBulkPass h _) fun r => upholds_runStreamingPass h r
  refine .bind hpasses.attempt fun r => .bind (upholds_enter .idle) fun _ => ?_
  cases r with
  | ok report => exact .pure report
  | error e => exact .fail e

end Job

end LoanArrears
