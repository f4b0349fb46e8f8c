-- SUMMARY: Workers that post the sub-batches of a page in turns: whatever the order of their turns, the table and the outcomes are those of posting one after another.
import LoanArrears.Proofs.Job.Ending
import LoanArrears.Proofs.Job.SubBatch

/-!
# Taking turns

Each sub-batch of a page has a `Poster`, and a turn is one step of one of them: the read of a
loan, the batch, or a single write. Posters whose loans are `Separate` cannot see each other:
a turn and then all that is left to do is what was left to do before (`takeTurn_finishAll`). So
any order of turns comes to what posting one sub-batch after the other comes to.
-/

namespace LoanArrears

/-- A worker that posts a sub-batch, and how far it is. -/
structure Poster where
  batch : SubBatch
  worker : Nat
  stream : JitterStream
  stage : Stage

namespace Poster

def start (batch : SubBatch) (worker : Nat) (stream : JitterStream) : Poster :=
  ⟨batch, worker, stream, .reading (.start batch worker stream) batch.loans⟩

/-- What is left of a posting that crashed. -/
def crashed (p : Poster) : Posting :=
  (Posting.start p.batch p.worker p.stream).fail (.workerCrashed p.worker)

def outcome (p : Poster) : PostOutcome :=
  p.stage.posting.outcome

def IsDone (p : Poster) : Prop :=
  ∃ posting, p.stage = .done posting

/-- The stage after a step; a crash is the end. -/
def moved (p : Poster) : Except Fault Stage → Poster
  | .ok stage => { p with stage }
  | .error _ => { p with stage := .done p.crashed }

/-- The outcome after all steps; a crash is a failure. -/
def settled (p : Poster) : Except Fault Posting → PostOutcome
  | .ok posting => posting.outcome
  | .error _ => p.crashed.outcome

variable [BookAccess σ] [ArrearsAccess σ]

/-- One step. -/
def next (policy : RetryPolicy) (today : Date) (p : Poster) : Act σ Poster :=
  p.moved <$> (p.stage.next policy today).outcome

/-- All steps that are left. -/
def finish (policy : RetryPolicy) (today : Date) (p : Poster) : Act σ PostOutcome :=
  p.settled <$> (p.stage.finish policy today).outcome

end Poster

section Turns

variable [BookAccess σ] [ArrearsAccess σ]

/-- One of the posters does its next step. -/
def takeTurn (policy : RetryPolicy) (today : Date) : List Poster → Nat → Act σ (List Poster)
  | [], _ => return []
  | p :: ps, 0 => return (← p.next policy today) :: ps
  | p :: ps, i + 1 => return p :: (← takeTurn policy today ps i)

/-- Steps of posters, in the order of the turns. -/
def takeTurns (policy : RetryPolicy) (today : Date) (ps : List Poster) (turns : List Nat) :
    Act σ (List Poster) :=
  turns.foldlM (takeTurn policy today) ps

/-- All steps that are left, one poster after the other. -/
def finishAll (policy : RetryPolicy) (today : Date) (ps : List Poster) : Act σ (List PostOutcome) :=
  ps.mapM (·.finish policy today)

end Turns

/-! ## One poster -/

namespace Poster

section

variable [BookAccess σ] [ArrearsAccess σ] (policy : RetryPolicy) (today : Date)

/-- A step and then the others are all the steps. -/
theorem next_finish (p : Poster) :
    (p.next policy today >>= finish policy today : Act σ PostOutcome) = p.finish policy today := by
  funext s
  have hstage := congrArg (Act.exec · s) (p.stage.next_finish (σ := σ) policy today)
  show (p.next policy today >>= finish policy today : Act σ PostOutcome).exec s =
    (p.finish policy today).exec s
  rw [Act.exec_bind] at hstage
  rw [finish, Act.exec_map, Act.exec_outcome, ← hstage, next, Act.exec_bind, Act.exec_map,
    Act.exec_outcome]
  rcases (p.stage.next policy today).exec s with ⟨f | stage, s'⟩
  · rfl
  · simp only [Except.map, finish, moved, Act.exec_map, Act.exec_outcome]
    rfl

/-- All steps from the start are the guarded posting, by the worker of that index. -/
theorem finish_start (batch : SubBatch) (stream : JitterStream) :
    ((start batch batch.index stream).finish policy today : Act σ PostOutcome) =
      Prod.fst <$> Job.postGuarded batch policy today stream := by
  funext s
  show ((start batch batch.index stream).finish policy today : Act σ PostOutcome).exec s =
    (Prod.fst <$> Job.postGuarded batch policy today stream : Act σ PostOutcome).exec s
  rw [finish, Act.exec_map, Act.exec_outcome, Act.exec_map, Job.postGuarded, Act.exec_bind,
    Act.exec_outcome, Stage.post_eq_finish, Act.exec_map]
  simp only [start]
  rcases (Stage.finish policy today
    (.reading (.start batch batch.index stream) batch.loans)).exec s with ⟨f | posting, s'⟩ <;> rfl

/-- Each step brings a poster nearer to its end. -/
theorem stepsLeft_next {p p' : Poster} {s s' : σ}
    (h : (p.next policy today : Act σ Poster).exec s = (.ok p', s')) :
    p'.stage.stepsLeft ≤ p.stage.stepsLeft - 1 := by
  obtain ⟨r, hr, rfl⟩ := Act.exists_of_exec_map_ok h
  rw [Act.exec_outcome] at hr
  cases r with
  | error f => exact Nat.zero_le _
  | ok stage =>
    have hstep : (p.stage.next policy today : Act σ Stage).exec s = (.ok stage, s') := by
      rcases hexec : (p.stage.next policy today).exec s with ⟨r, s₁⟩
      rw [hexec] at hr
      cases hr
      rfl
    exact Stage.stepsLeft_next policy today hstep

end

variable {b : Book} {today : Date} {policy : RetryPolicy} {p : Poster}

/-- Without faults a step changes rows of loans of the poster only. -/
theorem exists_next (h : p.stage.Unfailed) :
    ∃ p' ws, (p.next policy today : Act Store Poster).Does b false (.ok p') ws ∧
      (∀ w ∈ ws, w.loan ∈ p.stage.loans) ∧ p'.stage.loans ⊆ p.stage.loans ∧
      p'.stage.Unfailed := by
  rcases Stage.step_or_crash b today p.stage with ⟨stage, ws, hstep⟩ | ⟨c, hcrash⟩
  · exact ⟨_, ws, (hstep.does h).outcome.map p.moved, hstep.mem_loans.1, hstep.mem_loans.2,
      hstep.unfailed h⟩
  · refine ⟨_, [], (hcrash.does h).outcome.map p.moved, ?_, List.nil_subset _, trivial⟩
    intro w hw
    cases hw

theorem exists_finish (b : Book) (today : Date) (policy : RetryPolicy) (h : p.stage.Unfailed) :
    ∃ o ws, (p.finish policy today : Act Store PostOutcome).Does b false (.ok o) ws ∧
      ∀ w ∈ ws, w.loan ∈ p.stage.loans := by
  obtain ⟨r, ws, hends⟩ := Stage.exists_ends b today p.stage
  exact ⟨_, ws, (hends.does h).outcome.map p.settled, hends.mem_loans⟩

/-- From the start every worker comes to the same outcome but for its name. -/
theorem exists_finish_start (b : Book) (today : Date) (policy : RetryPolicy) (batch : SubBatch) :
    ∃ (o : PostOutcome) (ws : List ArrearsWrite), ∀ worker stream,
      ((start batch worker stream).finish policy today : Act Store PostOutcome).Does b false
        (.ok (o.byWorker worker)) ws := by
  let first := start batch 0 (.ofWorker 0 0)
  obtain ⟨r, ws, hends⟩ := Stage.exists_ends b today first.stage
  refine ⟨first.settled r, ws, fun worker stream => ?_⟩
  have hstart : (start batch worker stream).stage = first.stage.byWorker worker stream := rfl
  have hsettled : (start batch worker stream).settled (r.map (·.byWorker worker stream)) =
      (first.settled r).byWorker worker := by
    cases r <;> rfl
  rw [← hsettled]
  refine ((hstart ▸ (hends.byWorker worker stream).does ?_).outcome).map _
  rfl

end Poster

/-! ## Posters of different loans -/

/-- Loans whose rows posters can still change. -/
def loansOf (ps : List Poster) : List LoanId :=
  ps.flatMap (·.stage.loans)

/-- No poster failed, and none can change rows of another one's loans. -/
def Separate : List Poster → Prop
  | [] => True
  | p :: ps => p.stage.Unfailed ∧ (∀ id ∈ p.stage.loans, id ∉ loansOf ps) ∧ Separate ps

namespace Separate

variable {ps : List Poster}

/-- A turn changes rows of the posters' loans only, and leaves them separate. -/
theorem exists_takeTurn (h : Separate ps) (b : Book) (today : Date) (policy : RetryPolicy)
    (i : Nat) :
    ∃ ps' ws, (takeTurn policy today ps i : Act Store (List Poster)).Does b false (.ok ps') ws ∧
      (∀ w ∈ ws, w.loan ∈ loansOf ps) ∧ loansOf ps' ⊆ loansOf ps ∧ Separate ps' := by
  induction ps generalizing i with
  | nil => exact ⟨[], [], .pure [], fun w hw => (List.not_mem_nil hw).elim, List.nil_subset _, h⟩
  | cons p ps ih =>
    obtain ⟨hunfailed, hdisjoint, hrest⟩ := h
    cases i with
    | zero =>
      obtain ⟨p', ws, hnext, hws, hloans, hunfailed'⟩ := p.exists_next hunfailed
      refine ⟨p' :: ps, ws ++ [], hnext.bind_ok (.pure _), ?_, ?_, hunfailed', ?_, hrest⟩
      · intro w hw
        rw [List.append_nil] at hw
        exact List.mem_append_left _ (hws w hw)
      · exact List.append_subset.2 ⟨fun id hid => List.mem_append_left _ (hloans hid),
          List.subset_append_right _ _⟩
      · exact fun id hid => hdisjoint id (hloans hid)
    | succ i =>
      obtain ⟨ps', ws, hturn, hws, hloans, hseparate⟩ := ih hrest i
      refine ⟨p :: ps', ws ++ [], hturn.bind_ok (.pure _), ?_, ?_, hunfailed, ?_, hseparate⟩
      · intro w hw
        rw [List.append_nil] at hw
        exact List.mem_append_right _ (hws w hw)
      · exact List.append_subset.2 ⟨List.subset_append_left _ _,
          fun id hid => List.mem_append_right _ (hloans hid)⟩
      · exact fun id hid hmem => hdisjoint id hid (hloans hmem)

/-- A turn and then all that is left to do are what was left to do before. -/
theorem takeTurn_finishAll (h : Separate ps) (b : Book) (today : Date) (policy : RetryPolicy)
    (i : Nat) (t : ArrearsTable) :
    (takeTurn policy today ps i >>= finishAll policy today :
        Act Store (List PostOutcome)).exec ⟨some ⟨b, t⟩, false⟩ =
      (finishAll policy today ps).exec ⟨some ⟨b, t⟩, false⟩ := by
  induction ps generalizing i t with
  | nil => rfl
  | cons p ps ih =>
    obtain ⟨hunfailed, hdisjoint, hrest⟩ := h
    have hcons (p : Poster) (ps : List Poster) :
        (finishAll policy today (p :: ps) : Act Store (List PostOutcome)) = (do
          let o ← p.finish policy today
          let os ← finishAll policy today ps
          return o :: os) := List.mapM_cons
    cases i with
    | zero =>
      simp only [takeTurn, bind_assoc, pure_bind, hcons]
      rw [← bind_assoc, p.next_finish]
    | succ i =>
      -- The turn and the steps of the first poster can change places.
      obtain ⟨ps', ws, hturn, hws, -⟩ := hrest.exists_takeTurn b today policy i
      obtain ⟨o, ws', hfinish, hws'⟩ := p.exists_finish b today policy hunfailed
      have hne : ∀ w ∈ ws, ∀ w' ∈ ws', w.loan ≠ w'.loan := by
        intro w hw w' hw' heq
        exact hdisjoint w'.loan (hws' w' hw') (heq ▸ hws w hw)
      have hothers := ih hrest i (t.applyAll ws')
      rw [Act.exec_bind_ok (hturn _), ← ArrearsTable.applyAll_comm hne] at hothers
      simp only [takeTurn, bind_assoc, pure_bind, hcons]
      rw [Act.exec_bind_ok (hturn t), Act.exec_bind_ok (hfinish _), Act.exec_bind_ok (hfinish t),
        Act.exec_bind, Act.exec_bind, hothers]

/-- Turns succeed, and behind them all that is left to do comes to the same as before them. -/
theorem exists_takeTurns (h : Separate ps) (b : Book) (today : Date) (policy : RetryPolicy)
    (turns : List Nat) (t : ArrearsTable) :
    ∃ ps' t', (takeTurns policy today ps turns : Act Store (List Poster)).exec
        ⟨some ⟨b, t⟩, false⟩ = (.ok ps', ⟨some ⟨b, t'⟩, false⟩) ∧
      (finishAll policy today ps' : Act Store (List PostOutcome)).exec ⟨some ⟨b, t'⟩, false⟩ =
        (finishAll policy today ps).exec ⟨some ⟨b, t⟩, false⟩ := by
  induction turns generalizing ps t with
  | nil => exact ⟨ps, t, rfl, rfl⟩
  | cons i turns ih =>
    obtain ⟨ps₁, ws, hturn, -, -, hseparate⟩ := h.exists_takeTurn b today policy i
    obtain ⟨ps', t', hturns, hrest⟩ := ih hseparate (t.applyAll ws)
    refine ⟨ps', t', ?_, ?_⟩
    · rw [takeTurns, List.foldlM_cons, Act.exec_bind_ok (hturn t)]
      exact hturns
    · rw [hrest, ← h.takeTurn_finishAll b today policy i t, Act.exec_bind_ok (hturn t)]

end Separate

/-! ## Progress -/

/-- A bound on the steps that a poster has to do. -/
def stepsLeftOf (ps : List Poster) (i : Nat) : Nat :=
  (ps[i]?.map (·.stage.stepsLeft)).getD 0

section

variable [BookAccess σ] [ArrearsAccess σ] {policy : RetryPolicy} {today : Date}

/-- A turn brings its poster nearer to the end, and leaves the others where they are. -/
theorem stepsLeftOf_takeTurn {ps ps' : List Poster} {i : Nat} {s s' : σ}
    (h : (takeTurn policy today ps i : Act σ (List Poster)).exec s = (.ok ps', s')) (j : Nat) :
    stepsLeftOf ps' j ≤ stepsLeftOf ps j - if i = j then 1 else 0 := by
  induction ps generalizing ps' i j with
  | nil =>
    cases h
    exact Nat.zero_le _
  | cons p ps ih =>
    cases i with
    | zero =>
      simp only [takeTurn, bind_pure_comp] at h
      obtain ⟨p', hnext, rfl⟩ := Act.exists_of_exec_map_ok h
      cases j with
      | zero => exact p.stepsLeft_next policy today hnext
      | succ j => exact Nat.le_refl _
    | succ i =>
      simp only [takeTurn, bind_pure_comp] at h
      obtain ⟨ps₁, hturn, rfl⟩ := Act.exists_of_exec_map_ok h
      cases j with
      | zero => exact Nat.le_refl _
      | succ j =>
        simp only [Nat.add_right_cancel_iff]
        exact ih hturn j

theorem stepsLeftOf_takeTurns {ps ps' : List Poster} {turns : List Nat} {s s' : σ}
    (h : (takeTurns policy today ps turns : Act σ (List Poster)).exec s = (.ok ps', s')) (j : Nat) :
    stepsLeftOf ps' j ≤ stepsLeftOf ps j - turns.count j := by
  induction turns generalizing ps s with
  | nil =>
    cases h
    exact Nat.le_refl _
  | cons i turns ih =>
    rw [takeTurns, List.foldlM_cons, Act.exec_bind] at h
    rcases hturn : (takeTurn policy today ps i).exec s with ⟨_ | ps₁, s₁⟩
    · rw [hturn] at h
      cases h
    · rw [hturn] at h
      have hone := stepsLeftOf_takeTurn hturn j
      have hrest := ih h
      rw [List.count_cons]
      simp only [beq_iff_eq]
      omega

end

theorem isDone_of_stepsLeftOf {ps : List Poster} (h : ∀ i, stepsLeftOf ps i = 0) :
    ∀ p ∈ ps, p.IsDone := by
  intro p hp
  obtain ⟨i, hi, rfl⟩ := List.getElem_of_mem hp
  have hzero := h i
  rw [stepsLeftOf, List.getElem?_eq_getElem hi] at hzero
  exact Stage.eq_done_of_stepsLeft hzero

/-- Posters that are done have nothing left to do. -/
theorem finishAll_of_isDone [BookAccess σ] [ArrearsAccess σ] {policy : RetryPolicy} {today : Date}
    {ps : List Poster} (h : ∀ p ∈ ps, p.IsDone) :
    (finishAll policy today ps : Act σ (List PostOutcome)) = pure (ps.map (·.outcome)) := by
  induction ps with
  | nil => rfl
  | cons p ps ih =>
    obtain ⟨posting, hdone⟩ := h p List.mem_cons_self
    have hfinish : (p.finish policy today : Act σ PostOutcome) = pure p.outcome := by
      rw [Poster.finish, Poster.outcome, hdone]
      rfl
    have hrest := ih fun p' hp' => h p' (List.mem_cons_of_mem _ hp')
    rw [finishAll] at hrest ⊢
    rw [List.mapM_cons, hfinish, pure_bind, hrest, pure_bind]
    rfl

/-! ## Pages -/

/-- Posters of the sub-batches, none of which has done a step. -/
def startAll (worker : SubBatch → Nat) (stream : SubBatch → JitterStream)
    (batches : List SubBatch) : List Poster :=
  batches.map fun batch => .start batch (worker batch) (stream batch)

theorem loansOf_startAll (worker : SubBatch → Nat) (stream : SubBatch → JitterStream)
    (batches : List SubBatch) :
    loansOf (startAll worker stream batches) = batches.flatMap (·.loans) :=
  List.flatMap_map ..

theorem separate_startAll {worker : SubBatch → Nat} {stream : SubBatch → JitterStream}
    {batches : List SubBatch}
    (h : batches.Pairwise fun b b' => ∀ id ∈ b.loans, ∀ id' ∈ b'.loans, id < id') :
    Separate (startAll worker stream batches) := by
  induction batches with
  | nil => exact trivial
  | cons batch batches ih =>
    obtain ⟨hbatch, hrest⟩ := List.pairwise_cons.1 h
    refine ⟨rfl, fun id hid hmem => ?_, ih hrest⟩
    change id ∈ loansOf (startAll worker stream batches) at hmem
    rw [loansOf_startAll] at hmem
    obtain ⟨batch', hbatch', hid'⟩ := List.mem_flatMap.1 hmem
    exact Int.lt_irrefl _ (hbatch batch' hbatch' id hid id hid')

theorem stepsLeftOf_startAll (worker : SubBatch → Nat) (stream : SubBatch → JitterStream)
    (batches : List SubBatch) (i : Nat) :
    stepsLeftOf (startAll worker stream batches) i =
      (batches[i]?.map fun batch => 2 * batch.loans.length + 2).getD 0 := by
  rw [stepsLeftOf, startAll, List.getElem?_map, Option.map_map]
  rfl

/-- Whoever the workers are, they come to the same table and outcomes but for their names. -/
theorem exists_finishAll_startAll (b : Book) (today : Date) (policy : RetryPolicy)
    (batches : List SubBatch) :
    ∃ (os : List PostOutcome) (ws : List ArrearsWrite), ∀ worker stream,
      (finishAll policy today (startAll worker stream batches) :
        Act Store (List PostOutcome)).Does b false
        (.ok (batches.zipWith (fun batch o => o.byWorker (worker batch)) os)) ws := by
  induction batches with
  | nil => exact ⟨[], [], fun worker stream => .pure []⟩
  | cons batch batches ih =>
    obtain ⟨o, ws, hfinish⟩ := Poster.exists_finish_start b today policy batch
    obtain ⟨os, ws', hrest⟩ := ih
    refine ⟨o :: os, ws ++ (ws' ++ []), fun worker stream => ?_⟩
    rw [finishAll, startAll, List.map_cons, List.mapM_cons]
    exact (hfinish (worker batch) (stream batch)).bind_ok ((hrest worker stream).bind_ok (.pure _))

theorem zipWith_byWorker (worker worker' : SubBatch → Nat) (batches : List SubBatch)
    (os : List PostOutcome) :
    batches.zipWith (fun batch o => o.byWorker (worker batch))
        (batches.zipWith (fun batch o => o.byWorker (worker' batch)) os) =
      batches.zipWith (fun batch o => o.byWorker (worker batch)) os := by
  induction batches generalizing os with
  | nil => rfl
  | cons batch batches ih =>
    cases os with
    | nil => rfl
    | cons o os =>
      simp only [List.zipWith_cons_cons, PostOutcome.byWorker_byWorker, ih]

/-- The sub-batches of an ascending page are posted in turns, by any workers. Every order of
    turns succeeds, and a sub-batch is done after two turns for each of its loans and two more.
    When all are done, the store and the outcomes are those of the same workers posting one
    sub-batch after another. The workers of the job leave that store too, and outcomes that are
    the same but for the names of the workers. -/
theorem turns_post_page (b : Book) (today : Date) (policy : RetryPolicy) {page : List LoanId}
    (hpage : page.Pairwise (· ≤ ·)) (workers batchSize : Nat) (worker : SubBatch → Nat)
    (stream stream' : SubBatch → JitterStream) (t : ArrearsTable) (turns : List Nat) :
    ∃ posters s os s',
      (takeTurns policy today
          (startAll worker stream (SubBatch.ofPage page workers batchSize)) turns :
        Act Store (List Poster)).exec ⟨some ⟨b, t⟩, false⟩ = (.ok posters, s) ∧
      ((SubBatch.ofPage page workers batchSize).mapM fun batch =>
          Prod.fst <$> Job.postGuarded batch policy today (stream' batch) :
        Act Store (List PostOutcome)).exec ⟨some ⟨b, t⟩, false⟩ = (.ok os, s') ∧
      ((∀ (i : Nat) batch, (SubBatch.ofPage page workers batchSize)[i]? = some batch →
        2 * batch.loans.length + 2 ≤ turns.count i) → ∀ p ∈ posters, p.IsDone) ∧
      ((∀ p ∈ posters, p.IsDone) → s = s' ∧
        (finishAll policy today
            (startAll worker stream' (SubBatch.ofPage page workers batchSize)) :
          Act Store (List PostOutcome)).exec ⟨some ⟨b, t⟩, false⟩ =
            (.ok (posters.map (·.outcome)), s) ∧
        posters.map (·.outcome) = (SubBatch.ofPage page workers batchSize).zipWith
          (fun batch o => o.byWorker (worker batch)) os) := by
  have hseparate : Separate (startAll worker stream (SubBatch.ofPage page workers batchSize)) :=
    separate_startAll (SubBatch.ofPage_ascending hpage workers batchSize)
  obtain ⟨posters, t', hturns, hrest⟩ := hseparate.exists_takeTurns b today policy turns t
  obtain ⟨os, ws, hfinish⟩ := exists_finishAll_startAll b today policy
    (SubBatch.ofPage page workers batchSize)
  have hguarded : ((SubBatch.ofPage page workers batchSize).mapM fun batch =>
        Prod.fst <$> Job.postGuarded batch policy today (stream' batch) :
      Act Store (List PostOutcome)) = finishAll policy today
        (startAll (·.index) stream' (SubBatch.ofPage page workers batchSize)) := by
    rw [finishAll, startAll, List.mapM_map]
    simp only [← Poster.finish_start]
    rfl
  have hsequential := hfinish (·.index) stream' t
  rw [← hguarded] at hsequential
  refine ⟨posters, _, _, _, hturns, hsequential, fun hcount => ?_, fun hdone => ?_⟩
  · refine isDone_of_stepsLeftOf fun i => ?_
    have hleft := stepsLeftOf_takeTurns hturns i
    rw [stepsLeftOf_startAll] at hleft
    cases hbatch : (SubBatch.ofPage page workers batchSize)[i]? with
    | none =>
      rw [hbatch] at hleft
      exact Nat.le_zero.1 (Nat.le_trans hleft (Nat.sub_le _ _))
    | some batch =>
      have henough := hcount i batch hbatch
      rw [hbatch] at hleft
      simp only [Option.map_some, Option.getD_some] at hleft
      omega
  · rw [finishAll_of_isDone hdone, hfinish worker stream t] at hrest
    obtain ⟨hok, hstore⟩ := Prod.mk.injEq .. ▸ hrest
    have houtcomes := Except.ok.inj hok
    refine ⟨hstore, ?_, ?_⟩
    · rw [hfinish worker stream' t, ← houtcomes, ← hstore]
    · rw [houtcomes, zipWith_byWorker]

/-- Two workers post loans 1 and 2 in alternating turns, four each, and are done as when they
    post them one after the other. -/
theorem turns_post_sample_page :
    ([1, 2] : List LoanId).Pairwise (· ≤ ·) ∧ ∃ posters s os,
      (takeTurns .standard Sample.today
          (startAll (·.index + 1) (fun _ => .ofWorker 0 0) (SubBatch.ofPage [1, 2] 2 1))
          [1, 0, 1, 0, 0, 1, 0, 1] :
        Act Store (List Poster)).exec ⟨some ⟨Sample.book 2, Table.empty⟩, false⟩ =
          (.ok posters, s) ∧
      ((SubBatch.ofPage [1, 2] 2 1).mapM fun batch =>
          Prod.fst <$> Job.postGuarded batch .standard Sample.today (.ofWorker 0 0) :
        Act Store (List PostOutcome)).exec ⟨some ⟨Sample.book 2, Table.empty⟩, false⟩ =
          (.ok os, s) ∧
      (∀ p ∈ posters, p.IsDone) ∧
      posters.map (·.outcome) = (SubBatch.ofPage [1, 2] 2 1).zipWith
        (fun batch o => o.byWorker (batch.index + 1)) os := by
  have hpage : ([1, 2] : List LoanId).Pairwise (· ≤ ·) := by decide
  obtain ⟨posters, s, os, s', hturns, hsequential, hcount, hdone⟩ := turns_post_page
    (Sample.book 2) Sample.today .standard hpage 2 1 (·.index + 1) (fun _ => .ofWorker 0 0)
    (fun _ => .ofWorker 0 0) Table.empty [1, 0, 1, 0, 0, 1, 0, 1]
  have hwave : SubBatch.ofPage [1, 2] 2 1 = [⟨0, [1]⟩, ⟨1, [2]⟩] := by
    simp [SubBatch.ofPage, pieces, pieceSize]
  have hposters : ∀ p ∈ posters, p.IsDone := by
    refine hcount fun i batch hbatch => ?_
    rw [hwave] at hbatch
    rcases i with _ | _ | i
    · cases hbatch
      decide
    · cases hbatch
      decide
    · cases hbatch
  obtain ⟨rfl, -, houtcomes⟩ := hdone hposters
  exact ⟨hpage, posters, s, os, hturns, hsequential, hposters, houtcomes⟩

end LoanArrears
