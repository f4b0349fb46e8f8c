-- SUMMARY: The report of a run balances with the arrears table: what it counts are the pages of the pager, and the rows that are there in the end.
import LoanArrears.Proofs.Book.Overflow
import LoanArrears.Proofs.Book.Planned
import LoanArrears.Proofs.Job.Accounts
import LoanArrears.Proofs.Job.Course
import LoanArrears.Proofs.Job.Mirroring
import LoanArrears.Proofs.Store.Serving

/-!
# The balance of a report

On a store that serves its tables or fails, the outcomes of all sub-batches together settle the
loans of the pages: what is counted has landed, and each loan has landed, was skipped, or is left
over by a sub-batch that failed (`Settles`). The pages are those of a pager over the book, so no
loan is in them twice and none of them has a row of the bulk insert. That is why the rows that
are there in the end are those that were counted.
-/

namespace LoanArrears

/-! ## Settling loans -/

/-- The outcomes count the writes that landed for the loans. Each of the loans has landed, was
    skipped, or is left over, and none is without a failure. -/
structure Settles (outcomes : List PostOutcome) (loans : List LoanId)
    (landed : List ArrearsWrite) : Prop where
  length : (outcomes.map (·.loans)).sum = loans.length
  upserted : (outcomes.map (·.upserted)).sum = upsertCount landed
  deleted : (outcomes.map (·.deleted)).sum = deleteCount landed
  effective : ∀ w ∈ landed, ∃ e, w.entryLeft = .ok e
  exists_perm : ∃ rest, ((∀ o ∈ outcomes, o.failure = none) → rest = []) ∧
    (landed.map ArrearsWrite.loan ++ (outcomes.flatMap PostOutcome.skipped).map SkippedLoan.loan ++
      rest).Perm loans

namespace Settles

variable {os os' : List PostOutcome} {loans loans' : List LoanId}
  {landed landed' : List ArrearsWrite}

theorem nil : Settles [] [] [] where
  length := rfl
  upserted := rfl
  deleted := rfl
  effective := List.forall_mem_nil _
  exists_perm := ⟨[], fun _ => rfl, .nil⟩

theorem append (h : Settles os loans landed) (h' : Settles os' loans' landed') :
    Settles (os ++ os') (loans ++ loans') (landed ++ landed') where
  length := by
    rw [List.map_append, List.sum_append, h.length, h'.length, List.length_append]
  upserted := by
    rw [List.map_append, List.sum_append, h.upserted, h'.upserted, upsertCount_append]
  deleted := by rw [List.map_append, List.sum_append, h.deleted, h'.deleted, deleteCount_append]
  effective w hw := (List.mem_append.1 hw).elim (h.effective w) (h'.effective w)
  exists_perm := by
    obtain ⟨rest, hrest, hperm⟩ := h.exists_perm
    obtain ⟨rest', hrest', hperm'⟩ := h'.exists_perm
    refine ⟨rest ++ rest', fun hnone => ?_, ?_⟩
    · rw [hrest fun o ho => hnone o (List.mem_append_left _ ho),
        hrest' fun o ho => hnone o (List.mem_append_right _ ho)]
      rfl
    · refine List.Perm.trans ?_ (hperm.append hperm')
      refine List.perm_iff_count.2 fun id => ?_
      simp only [List.flatMap_append, List.map_append, List.count_append]
      omega

theorem upserted_add_le (h : Settles os loans landed) :
    (os.map (·.upserted)).sum + (os.map (·.deleted)).sum + (os.flatMap PostOutcome.skipped).length ≤
      (os.map (·.loans)).sum := by
  obtain ⟨rest, -, hperm⟩ := h.exists_perm
  have hlength := hperm.length_eq
  have hcounts := upsertCount_add_deleteCount landed
  simp only [List.length_append, List.length_map] at hlength
  rw [h.upserted, h.deleted, h.length, hcounts]
  omega

theorem upserted_add_eq (h : Settles os loans landed) (hnone : ∀ o ∈ os, o.failure = none) :
    (os.map (·.upserted)).sum + (os.map (·.deleted)).sum + (os.flatMap PostOutcome.skipped).length =
      (os.map (·.loans)).sum := by
  obtain ⟨rest, hrest, hperm⟩ := h.exists_perm
  have hlength := hperm.length_eq
  have hcounts := upsertCount_add_deleteCount landed
  simp only [hrest hnone, List.length_append, List.length_map, List.length_nil] at hlength
  rw [h.upserted, h.deleted, h.length, hcounts]
  omega

/-- Writes that landed are for different loans of the pages. -/
theorem nodup_landed (h : Settles os loans landed) (hloans : loans.Nodup) :
    (landed.map ArrearsWrite.loan).Nodup ∧ landed.map ArrearsWrite.loan ⊆ loans := by
  obtain ⟨rest, -, hperm⟩ := h.exists_perm
  rw [List.append_assoc] at hperm
  exact ⟨(List.nodup_append.1 (hperm.nodup_iff.2 hloans)).1,
    List.Subset.trans (List.subset_append_left _ _) hperm.subset⟩

end Settles

/-! ## Posting -/

section Posting

variable [BookAccess σ] [ArrearsAccess σ] {table : σ → ArrearsTable} {config : JobParameters}
  {policy : RetryPolicy} {today : Date} {s s' : σ}

/-- No worker crashed on the sub-batch. -/
def PostOutcome.NotCrashed (o : PostOutcome) : Prop :=
  ∀ worker, o.failure ≠ some (.workerCrashed worker)

/-- A guarded posting without a crash is the posting. -/
theorem Job.exec_post_of_exec_postGuarded {b : SubBatch} {stream stream' : JitterStream}
    {o : PostOutcome}
    (h : (postGuarded b policy today stream).exec s = (.ok (o, stream'), s'))
    (ho : o.NotCrashed) :
    (b.post policy today b.index stream).exec s = (.ok (o, stream'), s') := by
  have houtcome := Act.exec_outcome (b.post policy today b.index stream : Act σ _) s
  rw [postGuarded, Act.exec_bind_ok houtcome] at h
  rcases hpost : (b.post policy today b.index stream).exec s with ⟨f | done, s₁⟩
  · rw [hpost] at h
    cases h
    exact absurd rfl (ho b.index)
  · rw [hpost] at h
    cases h
    rfl

/-- What happened in a posting settles its loans. -/
theorem Account.Happened.settles (hσ : KeepsTable table) {a : Account} {b : SubBatch}
    {stream stream' : JitterStream}
    (h : a.Happened policy today b.loans s stream s' stream') (worker : Nat) :
    Settles [a.outcome b worker] b.loans a.landed where
  length := Nat.add_zero _
  upserted := Nat.add_zero _
  deleted := Nat.add_zero _
  effective := (h.table hσ).1
  exists_perm := by
    obtain ⟨rest, hrest, hperm⟩ := h.exists_perm
    refine ⟨rest, fun hnone => hrest (hnone _ (List.mem_singleton_self _)), ?_⟩
    rw [List.flatMap_singleton]
    exact hperm

/-- Wave by wave, what landed is what the table has got. -/
theorem WavePosted.exists_settles (hσ : KeepsTable table) {streams streams' : List JitterStream}
    {batches : List SubBatch} {os : List PostOutcome}
    (h : WavePosted config today streams s batches os streams' s')
    (hos : ∀ o ∈ os, o.NotCrashed) :
    ∃ landed, Settles os (batches.flatMap (·.loans)) landed ∧
      table s' = (table s).applyAll landed := by
  induction h with
  | nil => exact ⟨[], .nil, rfl⟩
  | @cons streams streams' s s₁ s' b batches o os stream hpost hrest ih =>
    have hcases := Account.post_cases b config.retry today b.index
      (streams.getD b.index (.ofWorker config.jitterSeed b.index)) s
    rw [Job.exec_post_of_exec_postGuarded hpost (hos o List.mem_cons_self)] at hcases
    obtain ⟨a, ha, rfl⟩ := hcases
    obtain ⟨landed, hsettles, htable⟩ := ih fun o ho => hos o (List.mem_cons_of_mem _ ho)
    refine ⟨a.landed ++ landed, (ha.settles hσ b.index).append hsettles, ?_⟩
    rw [htable, (ha.table hσ).2, ArrearsTable.applyAll_append]

end Posting

/-! ## Pages -/

namespace ServesTables

variable [BookAccess σ] [ArrearsAccess σ] [Connections σ] {tables : σ → Tables}

theorem keeps_candidates (h : ServesTables tables) (after : LoanId) (pageSize : Nat)
    (today : Date) :
    (BookAccess.candidates after pageSize today : Act σ (List LoanId)).Keeps tables := by
  intro s
  have hserves := h.candidates after pageSize today s
  rcases hexec : (BookAccess.candidates after pageSize today : Act σ (List LoanId)).exec s with
    ⟨f | ids, s'⟩
  · rw [hexec] at hserves
    exact hserves
  · exact (h.exec_candidates hexec).2

theorem keeps_next (h : ServesTables tables) (pager : Pager) :
    (pager.next : Act σ (Option (List LoanId) × Pager)).Keeps tables :=
  Act.keeps_iff_mirrors.2 fun v => (Act.keeps_iff_mirrors.1 (h.keeps_candidates _ _ _) v).next

/-- What the pager does next over the store, it does over every plain store of the book. -/
theorem exec_next (h : ServesTables tables) {pager pager' : Pager} {page? : Option (List LoanId)}
    {s s' : σ} (hnext : (pager.next).exec s = (.ok (page?, pager'), s')) (t : ArrearsTable) :
    (pager.next : Act Store (Option (List LoanId) × Pager)).exec
        ⟨some ⟨(tables s).book, t⟩, false⟩ =
      (.ok (page?, pager'), ⟨some ⟨(tables s).book, t⟩, false⟩) := by
  cases hexhausted : pager.exhausted with
  | true =>
    rw [Pager.next, if_pos hexhausted] at hnext ⊢
    cases hnext
    rfl
  | false =>
    have hplain : Store.HasBook ⟨some ⟨(tables s).book, t⟩, false⟩ (tables s).book := ⟨t, rfl⟩
    rw [Pager.exec_next hplain hexhausted]
    rcases hfetch : (BookAccess.candidates pager.cursor pager.pageSize pager.today :
      Act σ (List LoanId)).exec s with ⟨f | ids, s₁⟩
    · rw [Pager.exec_next_error hexhausted hfetch] at hnext
      cases hnext
    · obtain ⟨rfl, -⟩ := h.exec_candidates hfetch
      rw [Pager.exec_next_of_candidates hexhausted hfetch] at hnext
      rw [(Prod.mk.inj hnext).1]

theorem mirrorsLoans (h : ServesTables tables) (b : Book) :
    MirrorsLoans (fun s s' : σ => s = s' ∧ (tables s).book = b) fun _ => True where
  toMirrorsReads := h.readsKeep_book.mirrorsReads b
  write w _ := Act.keeps_iff_mirrors.1 ((h.write w).keeps_book (Store.keeps_book_write w)) b
  writeBatch ws _ :=
    Act.keeps_iff_mirrors.1 ((h.writeBatch ws).keeps_book (Store.keeps_book_writeBatch ws)) b

/-- Posting leaves the book as it is. -/
theorem keeps_book_postWave (h : ServesTables tables) (config : JobParameters) (today : Date)
    (p : Job.Progress) (batches : List SubBatch) :
    (Job.postWave config today p batches : Act σ Job.Progress).Keeps fun s => (tables s).book :=
  Act.keeps_iff_mirrors.2 fun b => (h.mirrorsLoans b).postWave (fun _ _ _ _ => trivial) p

end ServesTables

section Pages

variable [BookAccess σ] [ArrearsAccess σ] [Connections σ] {tables : σ → Tables}
  {config : JobParameters} {today : Date} {s s' : σ}

theorem WavePosted.book_eq (hσ : ServesTables tables) {streams streams' : List JitterStream}
    {batches : List SubBatch} {os : List PostOutcome}
    (h : WavePosted config today streams s batches os streams' s') :
    (tables s').book = (tables s).book :=
  (hσ.keeps_book_postWave config today ⟨.new today, streams⟩ batches).view_eq (h.exec_postWave _)

namespace PagesPosted

variable {limit : Nat} {pager : Pager} {streams : List JitterStream} {pages : List PostedPage}
  {fault : Option Fault}

theorem book_eq (hσ : ServesTables tables)
    (h : PagesPosted config today limit pager streams s pages fault s') :
    (tables s').book = (tables s).book := by
  induction h with
  | stopped => rfl
  | drained hnext => exact congrArg Tables.book ((hσ.keeps_next _).view_eq hnext)
  | broken hnext => exact congrArg Tables.book ((hσ.keeps_next _).view_eq hnext)
  | posted hnext hwave hrest ih =>
    rw [ih, hwave.book_eq hσ, (hσ.keeps_next _).view_eq hnext]

theorem exists_settles (hσ : ServesTables tables)
    (h : PagesPosted config today limit pager streams s pages fault s')
    (hos : ∀ page ∈ pages, ∀ o ∈ page.outcomes, o.NotCrashed) :
    ∃ landed, Settles (pages.flatMap (·.outcomes)) (pages.flatMap (·.ids)) landed ∧
      (tables s').arrears = (tables s).arrears.applyAll landed := by
  induction h with
  | stopped => exact ⟨[], .nil, rfl⟩
  | drained hnext =>
    exact ⟨[], .nil, congrArg Tables.arrears ((hσ.keeps_next _).view_eq hnext)⟩
  | broken hnext =>
    exact ⟨[], .nil, congrArg Tables.arrears ((hσ.keeps_next _).view_eq hnext)⟩
  | posted hnext hwave hrest ih =>
    obtain ⟨landed, hsettles, htable⟩ :=
      hwave.exists_settles hσ.keepsTable (hos _ List.mem_cons_self)
    obtain ⟨landed', hsettles', htable'⟩ :=
      ih fun page hpage => hos page (List.mem_cons_of_mem _ hpage)
    rw [SubBatch.flatMap_ofPage] at hsettles
    refine ⟨landed ++ landed', hsettles.append hsettles', ?_⟩
    rw [htable', htable, (hσ.keeps_next _).view_eq hnext, ArrearsTable.applyAll_append]

omit [Connections σ] in
/-- Each page has an outcome for every one of its sub-batches. -/
theorem map_length_outcomes (h : PagesPosted config today limit pager streams s pages fault s') :
    pages.map (·.outcomes.length) = (pages.map (·.ids)).map fun page =>
      (SubBatch.ofPage page config.workers config.batchSize).length := by
  induction h with
  | stopped => rfl
  | drained hnext => rfl
  | broken hnext => rfl
  | posted hnext hwave hrest ih =>
    rw [List.map_cons, ih, hwave.length_eq]
    rfl

/-- The pages of a run that no fault ended are those of its pager over the book. -/
theorem exists_drainUpTo (hσ : ServesTables tables)
    (h : PagesPosted config today limit pager streams s pages none s') (t : ArrearsTable) :
    ∃ pager', (pager.drainUpTo limit : Act Store (List (List LoanId) × Pager)).exec
        ⟨some ⟨(tables s).book, t⟩, false⟩ =
      (.ok (pages.map (·.ids), pager'), ⟨some ⟨(tables s).book, t⟩, false⟩) := by
  generalize hfault : (none : Option Fault) = fault at h
  induction h with
  | @stopped pager streams s => exact ⟨pager, rfl⟩
  | @drained limit pager pager' streams s s' hnext =>
    exact ⟨pager', Pager.exec_drainUpTo_end (hσ.exec_next hnext t) limit⟩
  | broken hnext => cases hfault
  | @posted limit pager pager₁ streams streams₁ s s₁ s₂ s' page os pages fault hnext hwave hrest
      ih =>
    have hbook : (tables s₂).book = (tables s).book := by
      rw [hwave.book_eq hσ, (hσ.keeps_next pager).view_eq hnext]
    obtain ⟨pager', hdrain⟩ := ih hfault
    rw [hbook] at hdrain
    exact ⟨pager', Pager.exec_drainUpTo_page (hσ.exec_next hnext t) hdrain⟩

end PagesPosted

end Pages

/-! ## The rows that are left -/

theorem ArrearsWrite.isSome_of_entryLeft {w : ArrearsWrite} {e : Option ArrearsEntry}
    (h : w.entryLeft = .ok e) : e.isSome = w.isUpsert := by
  cases w with
  | delete loan =>
    cases h
    rfl
  | upsert a =>
    obtain ⟨entry, -, hcheck⟩ := exists_of_bind_eq_ok h
    obtain ⟨u, -, hend⟩ := exists_of_bind_eq_ok hcheck
    cases hend
    rfl

/-- Writes that take effect for different loans without rows add a row for each upsert. -/
theorem ArrearsTable.size_applyAll {ws : List ArrearsWrite}
    (heffective : ∀ w ∈ ws, ∃ e, w.entryLeft = .ok e) (hloans : (ws.map ArrearsWrite.loan).Nodup)
    {t : ArrearsTable} (hnew : ∀ w ∈ ws, t.find? w.loan = none) :
    (t.applyAll ws).size = t.size + upsertCount ws := by
  induction ws generalizing t with
  | nil => rfl
  | cons w ws ih =>
    obtain ⟨hw, hws⟩ := List.nodup_cons.1 hloans
    obtain ⟨e, he⟩ := heffective w List.mem_cons_self
    have hfree := hnew w List.mem_cons_self
    have hnew' : ∀ w' ∈ ws, (t.set w.loan e).find? w'.loan = none := by
      intro w' hw'
      have hne : w'.loan ≠ w.loan := fun heq => hw (heq ▸ List.mem_map_of_mem hw')
      rw [find?_set, if_neg hne]
      exact hnew w' (List.mem_cons_of_mem _ hw')
    have hset : (t.set w.loan e).size = t.size + upsertCount [w] := by
      have hsome := w.isSome_of_entryLeft he
      cases e with
      | none =>
        rw [set, Table.erase_of_find?_eq_none hfree, upsertCount, List.countP_singleton, ← hsome]
        rfl
      | some entry =>
        rw [set, Table.size_put hfree, upsertCount, List.countP_singleton, ← hsome]
        rfl
    have hrest := ih (fun w' hw' => heffective w' (List.mem_cons_of_mem _ hw')) hws hnew'
    show ((t.apply w).applyAll ws).size = _
    rw [apply_of_entryLeft he, hrest, hset, Nat.add_assoc, ← upsertCount_append]
    rfl

namespace Book

variable {b : Book} {today : Date}

/-- The bulk insert leaves candidates alone. -/
theorem bulkRow?_of_mem_candidateIds {id : LoanId} (h : id ∈ b.candidateIds today) :
    b.bulkRow? today id = none := by
  obtain ⟨l, hl, hcandidate⟩ := mem_candidateIds_iff.1 h
  refine bulkRow?_of_bulkEntryOf hl (bulkEntryOf_of_not_isAgedInBulk fun p hp haged => ?_)
  rw [Loan.isAgedInBulk_eq, replays_of_isCandidate hp hcandidate, Bool.not_true,
    Bool.and_false] at haged
  cases haged

end Book

/-! ## The bulk pass and the connections -/

namespace ServesTables

variable [BookAccess σ] [ArrearsAccess σ] [Connections σ] {tables : σ → Tables}

theorem keeps_connectAll (h : ServesTables tables) (config : JobParameters) :
    (Job.connectAll config : Act σ Unit).Keeps tables :=
  Act.keeps_iff_mirrors.2 fun v => (Act.keeps_iff_mirrors.1 h.connect v).connectAll config

/-- A bulk pass that succeeds leaves the table of the bulk insert. -/
theorem exists_bulkInsert (h : ServesTables tables) {today : Date} {s s' : σ}
    {cleared bulkRows : Nat}
    (hbulk : (Job.bulkWork today).exec s = (.ok (cleared, bulkRows), s')) :
    ∃ t, (tables s).book.bulkInsert today Table.empty = .ok (bulkRows, t) ∧
      tables s' = ⟨(tables s).book, t⟩ := by
  obtain ⟨u, s₁, hconnect, hwork⟩ := Act.exists_of_exec_bind_ok hbulk
  obtain ⟨n, s₂, hreset, hwork⟩ := Act.exists_of_exec_bind_ok hwork
  obtain ⟨n', s₃, hinsert, hend⟩ := Act.exists_of_exec_bind_ok hwork
  cases hend
  have hcleared := h.reset s₁
  rw [hreset, h.connect.view_eq hconnect] at hcleared
  have hempty : (ArrearsAccess.reset : Act Store Nat).exec ⟨some (tables s), false⟩ =
      (.ok (tables s).arrears.size, ⟨some ⟨(tables s).book, Table.empty⟩, false⟩) :=
    Store.exec_changing _ _
  have htables : some ⟨(tables s).book, Table.empty⟩ = some (tables s₂) :=
    congrArg (fun x => x.2.tables) (hempty.symm.trans hcleared)
  have hfilled := h.bulkInsert today s₂
  rw [hinsert, ← Option.some.inj htables, Job.exec_bulkInsert] at hfilled
  cases hplain : (tables s).book.bulkInsert today Table.empty with
  | error e =>
    rw [hplain] at hfilled
    cases hfilled
  | ok done =>
    rw [hplain] at hfilled
    obtain ⟨hcount, hstore⟩ := Prod.mk.inj hfilled
    cases hcount
    exact ⟨done.2, rfl, (Option.some.inj (congrArg Store.tables hstore)).symm⟩

end ServesTables

/-! ## Runs -/

section Runs

variable [BookAccess σ] [ArrearsAccess σ] [Connections σ] {tables : σ → Tables}
  {config : JobParameters} {today : Date} {s s' : σ}

namespace Course

variable {c : Course}

/-- A course without a fault has both passes behind it. -/
theorem Happened.exists_pages (hσ : ServesTables tables) (h : c.Happened config today s s')
    (hfault : c.fault = none) :
    ∃ t s₁, (tables s).book.bulkInsert today Table.empty = .ok (c.bulkRows, t) ∧
      tables s₁ = ⟨(tables s).book, t⟩ ∧
      PagesPosted config today Pager.pageLimit (.new today config.pageSize) config.streams s₁
        c.pages none s' := by
  cases h with
  | unfilled hbulk => cases hfault
  | unstaffed hbulk hconnect => cases hfault
  | @streamed s₁ s₂ _ cleared bulkRows pages fault hbulk hconnect hpages =>
    cases hfault
    obtain ⟨t, hinsert, htables⟩ := hσ.exists_bulkInsert hbulk
    have hkept := (hσ.keeps_connectAll config).view_eq hconnect
    exact ⟨t, s₂, hinsert, hkept.trans htables, hpages⟩

/-- No worker crashed if the report has no crash. -/
theorem notCrashed_of_failures (h : ∀ f ∈ c.failures, ∀ worker, f.failure ≠ .workerCrashed worker)
    (page : PostedPage) (hpage : page ∈ c.pages) (o : PostOutcome) (ho : o ∈ page.outcomes) :
    o.NotCrashed := by
  intro worker hcrash
  have hmem : o ∈ c.outcomes := List.mem_flatMap.2 ⟨page, hpage, ho⟩
  have hbatch : o.failedBatch? = some ⟨o.subBatch, o.firstId, o.lastId, .workerCrashed worker⟩ := by
    rw [PostOutcome.failedBatch?, hcrash]
    rfl
  exact h _ (List.mem_filterMap.2 ⟨o, hmem, hbatch⟩) worker rfl

theorem failure_eq_none_of_failures (h : c.failures = []) (o : PostOutcome)
    (ho : o ∈ c.outcomes) : o.failure = none :=
  Option.map_eq_none_iff.1 (List.filterMap_eq_nil_iff.1 h o ho)

end Course

/-- What landed for loans of the pages is what is there besides the rows of the bulk insert. -/
theorem Settles.size_applyAll {b : Book} {os : List PostOutcome} {loans : List LoanId}
    {landed : List ArrearsWrite} (h : Settles os loans landed) (hloans : loans <+: b.streamed today)
    {n : Nat} {t : ArrearsTable} (hinsert : b.bulkInsert today Table.empty = .ok (n, t)) :
    (t.applyAll landed).size = n + upsertCount landed := by
  have hascending : loans.Pairwise (· < ·) :=
    ((b.ascending_candidateIds today).filter _).sublist hloans.sublist
  obtain ⟨hnodup, hsubset⟩ := h.nodup_landed (hascending.imp Int.ne_of_lt)
  have hnew : ∀ w ∈ landed, t.find? w.loan = none := by
    intro w hw
    have hstreamed := hloans.subset (hsubset (List.mem_map_of_mem hw))
    rw [Book.find?_of_bulkInsert hinsert]
    exact Book.bulkRow?_of_mem_candidateIds (List.mem_filter.1 hstreamed).1
  rw [ArrearsTable.size_applyAll h.effective hnodup hnew, Book.size_of_bulkInsert hinsert]
  exact congrArg (· + upsertCount landed) (Nat.zero_add n)

end Runs

namespace Sample

/-- The batch of loan 2 is refused, and the batch of loan 3 finds no disk. -/
def partlyFailing : Faulty Store :=
  Faulty.ofStore ⟨some ⟨twoReplaying, Table.empty⟩, false⟩
    [⟨.batch, some 2, Fault.ofName "constraint", none, 0⟩, ⟨.batch, some 3, .error noDisk, none, 0⟩]
    []

def partlyFailingJob : Job (Faulty Store) :=
  ⟨single, today, .idle, partlyFailing⟩

/-- Loan 2 landed, and it is the sub-batch of loan 3 that failed. -/
def landsTwo (r : RunReport) : Bool :=
  r.bulkRows = 1 && r.upserted = 1 && r.failed.map (·.firstId) = [some 3] &&
    r.failed.all fun f => f.failure matches .batch _

theorem landsTwo_run :
    ((Job.run : Act (Job (Faulty Store)) RunReport).exec partlyFailingJob).1.toOption.any
      landsTwo = true := by
  decide +kernel

end Sample

/-- The report of a run balances with the arrears table on every store that serves its tables or
    fails, unless a worker crashed: it counts the pages of the pager and their sub-batches, every
    loan of them once at most, and the rows of the bulk insert and of the loans are those that are
    there. -/
theorem run_report_balances [BookAccess σ] [ArrearsAccess σ] [Connections σ] {tables : σ → Tables}
    (hσ : ServesTables tables) {job job' : Job σ} {r : RunReport}
    (hrun : (Job.run : Act (Job σ) RunReport).exec job = (.ok r, job'))
    (hcrash : ∀ f ∈ r.failed, ∀ worker, f.failure ≠ .workerCrashed worker) :
    ∃ pages pager,
      ((Pager.new job.today job.config.pageSize).drain :
          Act Store (List (List LoanId) × Pager)).exec ⟨some (tables job.store), false⟩ =
        (.ok (pages, pager), ⟨some (tables job.store), false⟩) ∧
      r.pages = pages.length ∧ r.streamed = pages.flatten.length ∧
      r.subBatches = (pages.map fun page =>
        (SubBatch.ofPage page job.config.workers job.config.batchSize).length).sum ∧
      r.upserted + r.deleted + r.skipped.length ≤ r.streamed ∧
      (r.failed = [] → r.upserted + r.deleted + r.skipped.length = r.streamed) ∧
      (tables job'.store).book = (tables job.store).book ∧
      (tables job'.store).arrears.size = r.bulkRows + r.upserted := by
  obtain ⟨c, s', hc⟩ := Course.exists_happened job.config job.today job.store
  obtain ⟨phase, hcourse, -⟩ := hc.exists_exec_run job.phase
  have hanswer := hrun.symm.trans hcourse
  cases hfault : c.fault with
  | some f =>
    rw [hfault] at hanswer
    cases hanswer
  | none =>
    rw [hfault] at hanswer
    cases hanswer
    obtain ⟨t, s₁, hinsert, htables, hpages⟩ := hc.exists_pages hσ hfault
    obtain ⟨landed, hsettles, hlanded⟩ :=
      hpages.exists_settles hσ (Course.notCrashed_of_failures hcrash)
    obtain ⟨pager, hdrain⟩ := hpages.exists_drainUpTo hσ (tables job.store).arrears
    have hbook := hpages.book_eq hσ
    rw [htables] at hlanded hdrain hbook
    have hstreamed := Pager.flatten_drainUpTo_isPrefix ⟨(tables job.store).arrears, rfl⟩
      (Nat.le_max_right job.config.pageSize 1) hdrain
    refine ⟨c.pages.map PostedPage.ids, pager, hdrain, (List.length_map _).symm, hsettles.length,
      ?_, hsettles.upserted_add_le, fun hnone => ?_, hbook, ?_⟩
    · exact congrArg List.sum hpages.map_length_outcomes
    · exact hsettles.upserted_add_eq (Course.failure_eq_none_of_failures hnone)
    · rw [hlanded, hsettles.size_applyAll hstreamed hinsert, ← hsettles.upserted]
      rfl

/-- One loan has a row of the bulk insert, one landed and the sub-batch of one failed, so there
    are two rows. -/
theorem run_report_balances_of_sample :
    ServesTables (fun s : Faulty Store => s.inner.allTables) ∧
    ∃ r job, (Job.run : Act (Job (Faulty Store)) RunReport).exec Sample.partlyFailingJob =
        (.ok r, job) ∧
      (∀ f ∈ r.failed, ∀ worker, f.failure ≠ .workerCrashed worker) ∧
      r.failed.map (·.firstId) = [some 3] ∧ job.store.inner.allTables.arrears.size = 2 := by
  have hσ : ServesTables fun s : Faulty Store => s.inner.allTables :=
    Faulty.servesTables Store.servesTables
  have hlands := Sample.landsTwo_run
  rcases hrun : (Job.run : Act (Job (Faulty Store)) RunReport).exec Sample.partlyFailingJob with
    ⟨f | r, job⟩
  · rw [hrun] at hlands
    cases hlands
  rw [hrun] at hlands
  have hreport : Sample.landsTwo r = true := hlands
  simp only [Sample.landsTwo, Bool.and_eq_true, decide_eq_true_eq, List.all_eq_true] at hreport
  obtain ⟨⟨⟨hbulk, hupserted⟩, hfailed⟩, hbatches⟩ := hreport
  have hcrash : ∀ f ∈ r.failed, ∀ worker, f.failure ≠ .workerCrashed worker := by
    intro f hf worker hcrash
    have hbatch := hbatches f hf
    rw [hcrash] at hbatch
    cases hbatch
  obtain ⟨pages, pager, -, -, -, -, -, -, -, hsize⟩ := run_report_balances hσ hrun hcrash
  rw [hbulk, hupserted] at hsize
  exact ⟨hσ, r, job, rfl, hcrash, hfailed, hsize⟩

end LoanArrears
