-- SUMMARY: The account of a posting on a store that may fail anywhere: what was called, what landed of it, and that the outcome says just that.
import LoanArrears.Proofs.Book.Writes
import LoanArrears.Proofs.Job.Calls
import LoanArrears.Proofs.Job.Effects

/-!
# Accounts of postings

An `Account` holds the calls of a posting: the reads of its loans, the batch, and the single
writes. `Account.Happened` ties it to the stores before and after. What landed and what was skipped
is read off the account, and the outcome of the posting is what the account adds up to. So on any
store that keeps its table the outcome accounts for every loan.
-/

namespace LoanArrears

/-! ## Accounts -/

/-- The calls of a posting: for its loans, for the batch, and for single writes. -/
structure Account where
  reads : List (Call LoanId ArrearsWrite)
  batch : Option (RetryResult Unit)
  singles : List (Call ArrearsWrite Unit)

namespace Account

def computed (a : Account) : List ArrearsWrite :=
  answers a.reads

/-- The writes that took effect: those of the batch, or else the single ones. -/
def landed (a : Account) : List ArrearsWrite :=
  match a.batch with
  | some ⟨.ok _, _, _⟩ => a.computed
  | _ => answered a.singles

def skipped (a : Account) : List SkippedLoan :=
  refused id a.reads ++ refused (·.loan) a.singles

/-- What failed for good: a read, or the batch, or a single write. -/
def failure? (a : Account) : Option PostFailure :=
  ((failed? a.reads).map fun x => .reading x.1 x.2).or <|
    ((a.batch.bind (·.failure?)).map .batch).or <|
      (failed? a.singles).map fun x => .writing x.1.loan x.2

def retries (a : Account) : Nat :=
  retriesOf a.reads + (a.batch.map (·.retries)).getD 0 + retriesOf a.singles

/-- What the account adds up to. -/
def outcome (a : Account) (b : SubBatch) (worker : Nat) : PostOutcome :=
  { PostOutcome.ofBatch b worker with
    upserted := upsertCount a.landed
    deleted := deleteCount a.landed
    skipped := a.skipped
    retries := a.retries
    failure := a.failure? }

variable [BookAccess σ] [ArrearsAccess σ]

/-- The calls of the account are those of a posting of the loans, from one store to another. -/
inductive Happened (policy : RetryPolicy) (today : Date) (loans : List LoanId) (s : σ)
    (stream : JitterStream) : Account → σ → JitterStream → Prop where
  | unwritten {reads : List (Call LoanId ArrearsWrite)} {s' : σ} {stream' : JitterStream}
    (hreads : CallsMade policy (computeWrite · today .auto) s stream loans reads s' stream')
    (hstops : (failed? reads).isSome ∨ answers reads = []) :
    Happened policy today loans s stream ⟨reads, none, []⟩ s' stream'
  | atOnce {reads : List (Call LoanId ArrearsWrite)} {s₁ s' : σ} {stream₁ : JitterStream}
    {r : RetryResult Unit}
    (hreads : CallsMade policy (computeWrite · today .auto) s stream loans reads s₁ stream₁)
    (hgoes : failed? reads = none) (hwrites : answers reads ≠ [])
    (hbatch : (retry policy stream₁ (ArrearsAccess.writeBatch (answers reads))).exec s₁ =
      (.ok r, s')) (hends : r.refusal? = none) :
    Happened policy today loans s stream ⟨reads, some r, []⟩ s' r.stream
  | oneByOne {reads : List (Call LoanId ArrearsWrite)} {s₁ s₂ s' : σ}
    {stream₁ stream' : JitterStream} {r : RetryResult Unit} {e : Error}
    {singles : List (Call ArrearsWrite Unit)}
    (hreads : CallsMade policy (computeWrite · today .auto) s stream loans reads s₁ stream₁)
    (hgoes : failed? reads = none) (hwrites : answers reads ≠ [])
    (hbatch : (retry policy stream₁ (ArrearsAccess.writeBatch (answers reads))).exec s₁ =
      (.ok r, s₂)) (hrefused : r.refusal? = some e)
    (hsingles : CallsMade policy ArrearsAccess.write s₂ r.stream (answers reads) singles s'
      stream') :
    Happened policy today loans s stream ⟨reads, some r, singles⟩ s' stream'

end Account

/-! ## The outcome is the account -/

namespace Account

variable {policy : RetryPolicy} {today : Date} {b : SubBatch} {worker : Nat} {stream : JitterStream}
  {s : σ}

variable [BookAccess σ] [ArrearsAccess σ]

/-- The batch, and single writes if it is refused. -/
theorem flush_cases {reads : List (Call LoanId ArrearsWrite)} {p : Posting} {s₁ : σ}
    (hreads : CallsMade policy (computeWrite · today .auto) s stream b.loans reads s₁ p.stream)
    (hgoes : failed? reads = none) (hwrites : p.writes = answers reads) (hne : answers reads ≠ [])
    (houtcome : p.outcome = CallKind.reading.outcomeAfter (.ofBatch b worker) reads) :
    match (p.flush policy : Act σ Posting).exec s₁ with
    | (.ok p', s') => ∃ a : Account, a.Happened policy today b.loans s stream s' p'.stream ∧
      p'.outcome = a.outcome b worker
    | (.error f, _) => ∃ c, f = .crash c := by
  rw [CallKind.outcomeAfter_reading] at houtcome
  unfold Posting.flush
  rw [hwrites]
  rcases hbatch : (retry policy p.stream (ArrearsAccess.writeBatch (answers reads)) :
    Act σ (RetryResult Unit)).exec s₁ with ⟨f | r, s₂⟩
  · rw [Act.exec_bind_error hbatch]
    exact exists_crash_of_retry hbatch
  rw [Act.exec_bind_ok hbatch]
  rcases r.cases_outcome with ⟨v, hr, hf, href⟩ | ⟨e, hr, hdata, hf, href⟩ |
    ⟨e, hr, hdata, hf, href⟩
  · rcases r with ⟨_, delays, stream'⟩
    cases hr
    refine ⟨_, .atOnce hreads hgoes hne hbatch href, ?_⟩
    simp [Posting.landed, Posting.note, PostOutcome.ofBatch, houtcome, hwrites, outcome, landed,
      computed, skipped, retries, failure?, hgoes, hf]
  · simp only [hr, hdata, if_true]
    have hp : (p.note r).outcome.isFailed = false := by
      simp [Posting.note, houtcome, hgoes, PostOutcome.isFailed]
    have hsingles := CallKind.untilFailure_cases (k := .writing) (@Posting.writeOne_eq σ _ policy)
      (answers reads) (p.note r) hp s₂
    have hsame : (p.note r).writes = answers reads := hwrites
    rw [hsame]
    rcases hexec : (Posting.untilFailure (Posting.writeOne policy) (p.note r) (answers reads) :
      Act σ Posting).exec s₂ with ⟨f | p', s'⟩
    · rw [hexec] at hsingles
      exact hsingles
    · rw [hexec] at hsingles
      obtain ⟨singles, hsingles, hp'⟩ := hsingles
      refine ⟨_, .oneByOne hreads hgoes hne hbatch href hsingles, ?_⟩
      rw [hp', CallKind.outcome_foldl_after hsingles _ hp, CallKind.outcomeAfter_writing]
      rcases r with ⟨_, delays, stream'⟩
      cases hr
      simp [Posting.note, PostOutcome.ofBatch, houtcome, outcome, landed, skipped, retries,
        failure?, hgoes, hf]
  · simp only [hr, hdata, if_false]
    refine ⟨_, .atOnce hreads hgoes hne hbatch href, ?_⟩
    rcases r with ⟨_, delays, stream'⟩
    cases hr
    simp [Posting.fail, Posting.note, PostOutcome.ofBatch, houtcome, outcome, landed, skipped,
      retries, failure?, hgoes, hf, upsertCount, deleteCount]

/-- All steps of a posting. -/
theorem finish_cases (b : SubBatch) (policy : RetryPolicy) (today : Date) (worker : Nat)
    (stream : JitterStream) (s : σ) :
    match ((Stage.reading (.start b worker stream) b.loans).finish policy today :
      Act σ Posting).exec s with
    | (.ok p, s') => ∃ a : Account, a.Happened policy today b.loans s stream s' p.stream ∧
      p.outcome = a.outcome b worker
    | (.error f, _) => ∃ c, f = .crash c := by
  have hreads := CallKind.untilFailure_cases (k := .reading)
    (@Posting.readLoan_eq σ _ policy today) b.loans (.start b worker stream) rfl s
  rw [Stage.finish_reading]
  rcases hexec : (Posting.untilFailure (Posting.readLoan policy today) (.start b worker stream)
    b.loans : Act σ Posting).exec s with ⟨f | p, s₁⟩
  · rw [hexec] at hreads
    rw [Act.exec_bind_error hexec]
    exact hreads
  rw [hexec] at hreads
  rw [Act.exec_bind_ok hexec]
  obtain ⟨reads, hcalls, hp⟩ := hreads
  have houtcome : p.outcome = CallKind.reading.outcomeAfter (.ofBatch b worker) reads := by
    rw [hp]
    exact CallKind.outcome_foldl_after hcalls (.start b worker stream) rfl
  have hwrites : p.writes = answers reads := by
    rw [hp, CallKind.writes_foldl_reading]
    rfl
  have hfailed : p.outcome.isFailed = (failed? reads).isSome := by
    rw [houtcome, CallKind.outcomeAfter_reading]
    exact Option.isSome_map
  by_cases hstops : p.outcome.isFailed || p.writes.isEmpty
  · rw [if_pos hstops]
    refine ⟨_, .unwritten hcalls ?_, ?_⟩
    · simpa [hfailed, hwrites] using hstops
    · rw [houtcome, CallKind.outcomeAfter_reading]
      simp [PostOutcome.ofBatch, outcome, landed, skipped, retries, failure?, upsertCount,
        deleteCount]
  · rw [if_neg hstops]
    have hgoes : failed? reads = none ∧ answers reads ≠ [] := by
      simpa [hfailed, hwrites] using hstops
    exact flush_cases hcalls hgoes.1 hwrites hgoes.2 houtcome

/-- A posting that ends has an account, and its outcome is what the account adds up to. Only a
    crash keeps it from ending. -/
theorem post_cases (b : SubBatch) (policy : RetryPolicy) (today : Date) (worker : Nat)
    (stream : JitterStream) (s : σ) :
    match (b.post policy today worker stream : Act σ (PostOutcome × JitterStream)).exec s with
    | (.ok (o, stream'), s') => ∃ a : Account,
      a.Happened policy today b.loans s stream s' stream' ∧ o = a.outcome b worker
    | (.error f, _) => ∃ c, f = .crash c := by
  have hfinish := finish_cases b policy today worker stream s
  rw [Stage.post_eq_finish, Act.exec_map]
  rcases hexec : ((Stage.reading (.start b worker stream) b.loans).finish policy today :
    Act σ Posting).exec s with ⟨f | p, s'⟩
  · rw [hexec] at hfinish
    exact hfinish
  · rw [hexec] at hfinish
    exact hfinish

/-! ## What landed -/

section Landed

variable {loans : List LoanId} {stream' : JitterStream} {s' : σ} {a : Account}

theorem landed_of_ok {r : RetryResult Unit} {v : Unit} (hr : r.outcome = .ok v)
    (reads : List (Call LoanId ArrearsWrite)) (singles : List (Call ArrearsWrite Unit)) :
    landed ⟨reads, some r, singles⟩ = answers reads := by
  rcases r with ⟨_, _, _⟩
  cases hr
  rfl

theorem landed_of_error {r : RetryResult Unit} {e : Error} (hr : r.outcome = .error e)
    (reads : List (Call LoanId ArrearsWrite)) (singles : List (Call ArrearsWrite Unit)) :
    landed ⟨reads, some r, singles⟩ = answered singles := by
  rcases r with ⟨_, _, _⟩
  cases hr
  rfl

theorem outcome_of_refusal? {r : RetryResult Unit} {e : Error} (h : r.refusal? = some e) :
    r.outcome = .error e ∧ r.failure? = none := by
  rcases r.cases_outcome with ⟨v, -, -, href⟩ | ⟨e', hr, -, hf, href⟩ | ⟨e', -, -, -, href⟩
  · rw [h] at href
    cases href
  · rw [h] at href
    cases href
    exact ⟨hr, hf⟩
  · rw [h] at href
    cases href

/-- What landed has its entries, and the table is as it was but for that. -/
theorem Happened.table {table : σ → ArrearsTable} (hσ : KeepsTable table)
    (h : a.Happened policy today loans s stream s' stream') :
    (∀ w ∈ a.landed, ∃ e, w.entryLeft = .ok e) ∧ table s' = (table s).applyAll a.landed := by
  have hleaves (loan : LoanId) := hσ.leaves_computeWrite loan today .auto
  cases h with
  | unwritten hreads hstops =>
    exact ⟨List.forall_mem_nil _, hreads.table_of_leaves hleaves⟩
  | @atOnce reads s₁ _ _ r hreads hgoes hwrites hbatch hends =>
    have hdone := (hσ.writeBatch _).table_of_retry hbatch
    have hread : table s₁ = table s := hreads.table_of_leaves hleaves
    cases hr : r.outcome with
    | ok v =>
      rw [hr] at hdone
      rw [landed_of_ok hr, ← hread]
      exact hdone
    | error e =>
      rw [hr] at hdone
      rw [landed_of_error hr, ← hread]
      exact ⟨List.forall_mem_nil _, hdone⟩
  | @oneByOne reads s₁ s₂ _ _ _ r e singles hreads hgoes hwrites hbatch hrefused hsingles =>
    have hdone := (hσ.writeBatch _).table_of_retry hbatch
    have hread : table s₁ = table s := hreads.table_of_leaves hleaves
    obtain ⟨hr, -⟩ := outcome_of_refusal? hrefused
    rw [hr] at hdone
    have hbefore : table s₂ = table s := hdone.trans hread
    rw [landed_of_error hr, ← hbefore]
    exact hsingles.table_of_writes hσ

/-- Each loan has landed or was skipped, unless the posting failed. -/
theorem Happened.exists_perm (h : a.Happened policy today loans s stream s' stream') :
    ∃ rest, (a.failure? = none → rest = []) ∧
      (a.landed.map ArrearsWrite.loan ++ a.skipped.map SkippedLoan.loan ++ rest).Perm loans := by
  cases h with
  | @unwritten reads _ _ hreads hstops =>
    obtain ⟨rest, hrest, hperm⟩ := hreads.exists_perm_loans
    refine ⟨(answers reads).map ArrearsWrite.loan ++ rest, fun hnone => ?_, ?_⟩
    · have hgoes : failed? reads = none := by simpa [failure?] using hnone
      have hempty : answers reads = [] := by simpa [hgoes] using hstops
      rw [hrest hgoes, hempty]
      rfl
    · rw [skipped, refused_nil, List.append_nil]
      refine List.Perm.trans ?_ hperm
      rw [← List.append_assoc]
      exact List.perm_append_comm.append_right rest
  | @atOnce reads s₁ _ _ r hreads hgoes hwrites hbatch hends =>
    obtain ⟨rest, hrest, hperm⟩ := hreads.exists_perm_loans
    rw [hrest hgoes, List.append_nil] at hperm
    cases hr : r.outcome with
    | ok v =>
      refine ⟨[], fun _ => rfl, ?_⟩
      rw [landed_of_ok hr, skipped, refused_nil, List.append_nil, List.append_nil]
      exact hperm
    | error e =>
      refine ⟨(answers reads).map ArrearsWrite.loan, fun hnone => ?_, ?_⟩
      · have hf : r.failure? = none := by simpa [failure?, hgoes] using hnone
        rcases RetryResult.of_failure?_eq_none hf with ⟨v, hv, -⟩ | ⟨e', -, -, href⟩
        · rw [hr] at hv
          cases hv
        · rw [hends] at href
          cases href
      · rw [landed_of_error hr, skipped, refused_nil, List.append_nil]
        exact List.perm_append_comm.trans hperm
  | @oneByOne reads s₁ s₂ _ _ _ r e singles hreads hgoes hwrites hbatch hrefused hsingles =>
    obtain ⟨rest, hrest, hperm⟩ := hreads.exists_perm_loans
    obtain ⟨rest', hrest', hperm'⟩ := hsingles.exists_perm ArrearsWrite.loan
    obtain ⟨hr, hf⟩ := outcome_of_refusal? hrefused
    rw [hrest hgoes, List.append_nil] at hperm
    refine ⟨rest', fun hnone => hrest' ?_, ?_⟩
    · simpa [failure?, hgoes, hf] using hnone
    · rw [landed_of_error hr, skipped, List.map_append]
      refine List.Perm.trans ?_ ((hperm'.append_right _).trans hperm)
      have hswap := (@List.perm_append_comm _ ((refused id reads).map SkippedLoan.loan)
        ((refused ArrearsWrite.loan singles).map SkippedLoan.loan ++ rest')).append_left
          ((answered singles).map ArrearsWrite.loan)
      simpa only [List.append_assoc] using hswap

theorem Happened.landed_subset (h : a.Happened policy today loans s stream s' stream') :
    a.landed ⊆ a.computed := by
  cases h with
  | unwritten hreads hstops => exact List.nil_subset _
  | @atOnce reads s₁ _ _ r hreads hgoes hwrites hbatch hends =>
    cases hr : r.outcome with
    | ok v =>
      rw [landed_of_ok hr]
      exact List.Subset.refl _
    | error e =>
      rw [landed_of_error hr]
      exact List.nil_subset _
  | oneByOne hreads hgoes hwrites hbatch hrefused hsingles =>
    rw [landed_of_error (outcome_of_refusal? hrefused).1]
    exact hsingles.answered_sublist.subset

/-- What landed and what was skipped are different loans of the posting. -/
theorem Happened.nodup (h : a.Happened policy today loans s stream s' stream')
    (hloans : loans.Nodup) :
    (a.landed.map ArrearsWrite.loan ++ a.skipped.map SkippedLoan.loan).Nodup ∧
      a.landed.map ArrearsWrite.loan ++ a.skipped.map SkippedLoan.loan ⊆ loans := by
  obtain ⟨rest, -, hperm⟩ := h.exists_perm
  exact ⟨(List.nodup_append.1 (hperm.nodup_iff.2 hloans)).1,
    List.Subset.trans (List.subset_append_left _ rest) hperm.subset⟩

theorem Happened.exists_reads (h : a.Happened policy today loans s stream s' stream') :
    ∃ s₁ stream₁,
      CallsMade policy (computeWrite · today .auto) s stream loans a.reads s₁ stream₁ := by
  cases h with
  | unwritten hreads hstops => exact ⟨_, _, hreads⟩
  | atOnce hreads hgoes hwrites hbatch hends => exact ⟨_, _, hreads⟩
  | oneByOne hreads hgoes hwrites hbatch hrefused hsingles => exact ⟨_, _, hreads⟩

end Landed

/-- The account explains an outcome of the sub-batch, and the tables before and after. -/
structure Explains (a : Account) (b : SubBatch) (o : PostOutcome) (before after : ArrearsTable) :
    Prop where
  loans : o.loans = b.loans.length
  /-- The counts are those of the writes that took effect, and nothing else did. -/
  upserted : o.upserted = upsertCount a.landed
  deleted : o.deleted = deleteCount a.landed
  effective : ∀ w ∈ a.landed, ∃ e, w.entryLeft = .ok e
  after_eq : after = before.applyAll a.landed
  untouched : ∀ k, (k ∈ b.loans → k ∈ o.skipped.map SkippedLoan.loan) →
    after.find? k = before.find? k
  /-- A loan is skipped for the bad data that its read or its single write ended with. -/
  skipped : ∀ x ∈ o.skipped, x.loan ∈ b.loans ∧ x.reason.class = .data ∧
    ((∃ c ∈ a.reads, c.item = x.loan ∧ c.result.outcome = .error x.reason) ∨
      ∃ c ∈ a.singles, c.item.loan = x.loan ∧ c.result.outcome = .error x.reason)
  nodup_skipped : (o.skipped.map SkippedLoan.loan).Nodup
  /-- Without a failure every loan counts, and what is not skipped has its row. -/
  complete : o.failure = none → o.upserted + o.deleted + o.skipped.length = o.loans
  rows : o.failure = none → ∀ loan ∈ b.loans, loan ∉ o.skipped.map SkippedLoan.loan →
    ∃ c ∈ a.reads, ∃ w, c.item = loan ∧ c.result.outcome = .ok w ∧
      w.entryLeft = .ok (after.find? loan)
  /-- A failure before the single writes keeps everything from landing. -/
  reading : ∀ loan e, o.failure = some (.reading loan e) → a.landed = [] ∧
    ∃ c ∈ a.reads, c.item = loan ∧ c.result.outcome = .error e
  batch : ∀ e, o.failure = some (.batch e) → a.landed = [] ∧
    ∃ r, a.batch = some r ∧ r.outcome = .error e
  /-- Before a single write that fails, all writes landed but those that were skipped. -/
  writing : ∀ loan e, o.failure = some (.writing loan e) → ∃ done w rest,
    a.computed = done ++ w :: rest ∧ w.loan = loan ∧
    (∃ c ∈ a.singles, c.item = w ∧ c.result.outcome = .error e) ∧
    a.landed = done.filter fun w => w.loan ∉ o.skipped.map SkippedLoan.loan
  noCrash : ∀ worker, o.failure ≠ some (.workerCrashed worker)

end Account

namespace Account.Happened

variable [BookAccess σ] [ArrearsAccess σ] {table : σ → ArrearsTable} {a : Account} {b : SubBatch}
  {policy : RetryPolicy} {today : Date} {s s' : σ} {stream stream' : JitterStream}

theorem untouched (h : a.Happened policy today b.loans s stream s' stream') (hb : b.loans.Nodup)
    (t : ArrearsTable) {k : LoanId} (hk : k ∈ b.loans → k ∈ a.skipped.map SkippedLoan.loan) :
    (t.applyAll a.landed).find? k = t.find? k := by
  obtain ⟨hnodup, hsubset⟩ := h.nodup hb
  refine ArrearsTable.find?_applyAll_of_ne fun w hw hkw => ?_
  have hmem : k ∈ a.landed.map ArrearsWrite.loan := hkw ▸ List.mem_map_of_mem hw
  have hskipped := hk (hsubset (List.mem_append_left _ hmem))
  exact (List.nodup_append.1 hnodup).2.2 k hmem k hskipped rfl

theorem skipped_cases (h : a.Happened policy today b.loans s stream s' stream')
    (hb : b.loans.Nodup) {x : SkippedLoan} (hx : x ∈ a.skipped) :
    x.loan ∈ b.loans ∧ x.reason.class = .data ∧
      ((∃ c ∈ a.reads, c.item = x.loan ∧ c.result.outcome = .error x.reason) ∨
        ∃ c ∈ a.singles, c.item.loan = x.loan ∧ c.result.outcome = .error x.reason) := by
  obtain ⟨-, hsubset⟩ := h.nodup hb
  refine ⟨hsubset (List.mem_append_right _ (List.mem_map_of_mem hx)), ?_⟩
  rcases List.mem_append.1 hx with hx | hx
  · obtain ⟨c, hc, hloan, hr, hdata⟩ := mem_refused.1 hx
    exact ⟨hdata, .inl ⟨c, hc, hloan, hr⟩⟩
  · obtain ⟨c, hc, hloan, hr, hdata⟩ := mem_refused.1 hx
    exact ⟨hdata, .inr ⟨c, hc, hloan, hr⟩⟩

theorem complete (h : a.Happened policy today b.loans s stream s' stream')
    (hnone : a.failure? = none) :
    (a.landed.map ArrearsWrite.loan ++ a.skipped.map SkippedLoan.loan).Perm b.loans := by
  obtain ⟨rest, hrest, hperm⟩ := h.exists_perm
  rw [hrest hnone, List.append_nil] at hperm
  exact hperm

theorem length_eq (h : a.Happened policy today b.loans s stream s' stream')
    (hnone : a.failure? = none) :
    upsertCount a.landed + deleteCount a.landed + a.skipped.length = b.loans.length := by
  have hlength := (h.complete hnone).length_eq
  rw [List.length_append, List.length_map, List.length_map] at hlength
  rw [upsertCount_add_deleteCount, hlength]

/-- A loan of a posting without a failure that was not skipped has the row of its write. -/
theorem exists_row (h : a.Happened policy today b.loans s stream s' stream') (hσ : KeepsTable table)
    (hb : b.loans.Nodup) (hnone : a.failure? = none) {loan : LoanId} (hloan : loan ∈ b.loans)
    (hskipped : loan ∉ a.skipped.map SkippedLoan.loan) :
    ∃ c ∈ a.reads, ∃ w, c.item = loan ∧ c.result.outcome = .ok w ∧
      w.entryLeft = .ok ((table s').find? loan) := by
  obtain ⟨heffective, htable⟩ := h.table hσ
  obtain ⟨hnodup, -⟩ := h.nodup hb
  have hlanded : loan ∈ a.landed.map ArrearsWrite.loan :=
    (List.mem_append.1 ((h.complete hnone).symm.subset hloan)).resolve_right hskipped
  obtain ⟨w, hw, rfl⟩ := List.mem_map.1 hlanded
  obtain ⟨e, he⟩ := heffective w hw
  have hrow : (table s').find? w.loan = e := by
    rw [htable]
    refine ArrearsTable.find?_applyAll_of_mem ?_ hw rfl he
    intro w' hw' hsame e' he'
    have heq := List.inj_on_of_nodup_map (List.nodup_append.1 hnodup).1 hw' hw hsame
    rw [heq, he] at he'
    exact (Except.ok.inj he').symm
  obtain ⟨c, hc, hr⟩ := mem_answers.1 (h.landed_subset hw)
  obtain ⟨s₁, stream₁, hreads⟩ := h.exists_reads
  exact ⟨c, hc, w, (hreads.loan_of_mem hc hr).symm, hr, hrow ▸ he⟩

/-- A read that failed kept everything from landing. -/
theorem reading (h : a.Happened policy today b.loans s stream s' stream') {loan : LoanId}
    {e : Error} (hf : failed? a.reads = some (loan, e)) :
    a.landed = [] ∧ ∃ c ∈ a.reads, c.item = loan ∧ c.result.outcome = .error e := by
  have hcall : ∃ c ∈ a.reads, c.item = loan ∧ c.result.outcome = .error e := by
    obtain ⟨s₁, stream₁, hreads⟩ := h.exists_reads
    obtain ⟨before, r, rest, hsplit, -, hr, -⟩ := hreads.exists_of_failed? hf
    exact ⟨⟨loan, r⟩, hsplit ▸ List.mem_append_right _ (List.mem_singleton_self _), rfl, hr⟩
  refine ⟨?_, hcall⟩
  cases h with
  | unwritten hreads hstops => rfl
  | atOnce hreads hgoes hwrites hbatch hends =>
    rw [hgoes] at hf
    cases hf
  | oneByOne hreads hgoes hwrites hbatch hrefused hsingles =>
    rw [hgoes] at hf
    cases hf

/-- A batch that failed landed nothing, and no single write was made. -/
theorem batch (h : a.Happened policy today b.loans s stream s' stream') {e : Error}
    (hf : a.batch.bind RetryResult.failure? = some e) :
    a.landed = [] ∧ ∃ r, a.batch = some r ∧ r.outcome = .error e := by
  cases h with
  | unwritten hreads hstops => cases hf
  | @atOnce reads s₁ _ _ r hreads hgoes hwrites hbatch hends =>
    obtain ⟨hr, -⟩ := RetryResult.of_failure? hf
    exact ⟨landed_of_error hr reads [], r, rfl, hr⟩
  | @oneByOne reads s₁ s₂ _ _ _ r e singles hreads hgoes hwrites hbatch hrefused hsingles =>
    rw [Option.bind_some, (outcome_of_refusal? hrefused).2] at hf
    cases hf

/-- Before the single write that failed, all writes landed but those that were skipped. -/
theorem writing (h : a.Happened policy today b.loans s stream s' stream') (hb : b.loans.Nodup)
    {w : ArrearsWrite} {e : Error} (hf : failed? a.singles = some (w, e)) :
    ∃ done rest, a.computed = done ++ w :: rest ∧
      (∃ c ∈ a.singles, c.item = w ∧ c.result.outcome = .error e) ∧
      a.landed = done.filter fun w => w.loan ∉ a.skipped.map SkippedLoan.loan := by
  obtain ⟨hnodup, -⟩ := h.nodup hb
  have hdisjoint := (List.nodup_append.1 hnodup).2.2
  cases h with
  | unwritten hreads hstops => cases hf
  | atOnce hreads hgoes hwrites hbatch hends => cases hf
  | @oneByOne reads s₁ s₂ _ _ _ r e' singles hreads hgoes hwrites hbatch hrefused hsingles =>
    obtain ⟨before, r', rest, rfl, hitems, hr', hbefore⟩ := hsingles.exists_of_failed? hf
    have hlast : (⟨w, r'⟩ : Call ArrearsWrite Unit) ∈ before ++ [⟨w, r'⟩] :=
      List.mem_append_right _ (List.mem_singleton_self _)
    have hanswered : answered (before ++ [⟨w, r'⟩]) = answered before := by
      simp [answered, hr', Except.isOk, Except.toBool]
    have hlanded := landed_of_error (outcome_of_refusal? hrefused).1 reads (before ++ [⟨w, r'⟩])
    rw [hlanded, hanswered] at hdisjoint ⊢
    refine ⟨before.map Call.item, rest, hitems, ⟨_, hlast, rfl, hr'⟩, ?_⟩
    refine answered_eq_filter hbefore (fun x hx => ?_) fun w hw hskipped => ?_
    · obtain ⟨c, hc, hx⟩ := mem_refused.1 hx
      have hsingle : x ∈ refused ArrearsWrite.loan (before ++ [⟨w, r'⟩]) :=
        mem_refused.2 ⟨c, List.mem_append_left _ hc, hx⟩
      exact List.mem_map_of_mem (List.mem_append_right _ hsingle)
    · exact hdisjoint _ (List.mem_map_of_mem hw) _ hskipped rfl

end Account.Happened

/-- The failure of an account is that of one of its calls. -/
theorem Account.of_failure? {a : Account} {failure : PostFailure} (h : a.failure? = some failure) :
    match failure with
    | .reading loan e => failed? a.reads = some (loan, e)
    | .batch e => a.batch.bind RetryResult.failure? = some e
    | .writing loan e => ∃ w, w.loan = loan ∧ failed? a.singles = some (w, e)
    | .workerCrashed _ => False := by
  unfold failure? at h
  cases hreads : failed? a.reads with
  | some x =>
    rw [hreads] at h
    cases h
    rfl
  | none =>
    cases hbatch : a.batch.bind RetryResult.failure? with
    | some e =>
      rw [hreads, hbatch] at h
      cases h
      rfl
    | none =>
      rw [hreads, hbatch] at h
      cases hsingles : failed? a.singles with
      | some x =>
        rw [hsingles] at h
        cases h
        exact ⟨x.1, rfl, rfl⟩
      | none =>
        rw [hsingles] at h
        cases h

/-- What happened explains what the account adds up to. -/
theorem Account.Happened.explains [BookAccess σ] [ArrearsAccess σ] {table : σ → ArrearsTable}
    (hσ : KeepsTable table) {a : Account} {b : SubBatch} {policy : RetryPolicy} {today : Date}
    {s s' : σ} {stream stream' : JitterStream}
    (h : a.Happened policy today b.loans s stream s' stream') (hb : b.loans.Nodup) (worker : Nat) :
    a.Explains b (a.outcome b worker) (table s) (table s') := by
  obtain ⟨heffective, htable⟩ := h.table hσ
  obtain ⟨hnodup, -⟩ := h.nodup hb
  exact {
    loans := rfl
    upserted := rfl
    deleted := rfl
    effective := heffective
    after_eq := htable
    untouched := fun k hk => htable ▸ h.untouched hb (table s) hk
    skipped := fun x hx => h.skipped_cases hb hx
    nodup_skipped := (List.nodup_append.1 hnodup).2.1
    complete := h.length_eq
    rows := fun hnone loan hloan hskipped => h.exists_row hσ hb hnone hloan hskipped
    reading := fun loan e hf => h.reading (@Account.of_failure? a _ hf)
    batch := fun e hf => h.batch (@Account.of_failure? a _ hf)
    writing := fun loan e hf => by
      obtain ⟨w, hloan, hw⟩ := @Account.of_failure? a _ hf
      obtain ⟨done, rest, hcomputed, hcall, hlanded⟩ := h.writing hb hw
      exact ⟨done, w, rest, hcomputed, hloan, hcall, hlanded⟩
    noCrash := fun worker hf => @Account.of_failure? a _ hf }

/-! ## A sample account -/

namespace Sample

/-- The batch is refused because of loan 1, and the single write of loan 2 finds no disk. -/
def faults : FaultPlan :=
  [⟨.batch, some 1, Fault.ofName "constraint", none, 0⟩,
    ⟨.write, some 2, Fault.ofName "ioerr", none, 0⟩]

def faultyStore : Faulty Store :=
  Faulty.ofStore ⟨some ⟨book 2, Table.empty⟩, false⟩ faults []

/-- There is no loan 7. -/
def faultyBatch : SubBatch :=
  ⟨0, [1, 2, 7]⟩

/-- Loan 1 landed, loan 7 was skipped, and the write of loan 2 failed. -/
def stopsAtTwo (o : PostOutcome) : Bool :=
  o.upserted = 1 && o.skipped.map SkippedLoan.loan = [7] &&
    match o.failure with
    | some (.writing 2 _) => true
    | _ => false

theorem stopsAtTwo_post :
    (((faultyBatch.post .standard today 0 (.ofWorker 0 0) :
      Act (Faulty Store) (PostOutcome × JitterStream)).exec faultyStore).1.toOption.any
        fun x => stopsAtTwo x.1) = true := by
  decide +kernel

end Sample

/-- On a store that may fail at anything but keeps its table, the outcome of a posting accounts for
    what landed. -/
theorem post_accounts_for_writes [BookAccess σ] [ArrearsAccess σ] {table : σ → ArrearsTable}
    (hσ : KeepsTable table) (policy : RetryPolicy) (today : Date) {b : SubBatch}
    (hb : b.loans.Nodup) (worker : Nat) (stream : JitterStream) (s : σ) :
    match (b.post policy today worker stream : Act σ (PostOutcome × JitterStream)).exec s with
    | (.ok (o, stream'), s') => ∃ a : Account,
      a.Happened policy today b.loans s stream s' stream' ∧ a.Explains b o (table s) (table s')
    | (.error f, _) => ∃ c, f = .crash c := by
  have hpost := Account.post_cases b policy today worker stream s
  rcases hexec : (b.post policy today worker stream :
    Act σ (PostOutcome × JitterStream)).exec s with ⟨f | ⟨o, stream'⟩, s'⟩
  · rw [hexec] at hpost
    exact hpost
  rw [hexec] at hpost
  obtain ⟨a, ha, rfl⟩ := hpost
  exact ⟨a, ha, ha.explains hσ hb worker⟩

/-- The first of two single writes landed, and it is what the outcome counts. -/
theorem post_accounts_for_writes_of_sample :
    KeepsTable (fun s : Faulty Store => s.inner.arrears) ∧ Sample.faultyBatch.loans.Nodup ∧
    ∃ o stream s a,
      (Sample.faultyBatch.post .standard Sample.today 0 (.ofWorker 0 0) :
        Act (Faulty Store) (PostOutcome × JitterStream)).exec Sample.faultyStore =
          (.ok (o, stream), s) ∧
      Account.Happened .standard Sample.today [1, 2, 7] Sample.faultyStore (.ofWorker 0 0) a s
        stream ∧
      a.Explains Sample.faultyBatch o Table.empty s.inner.arrears ∧ Sample.stopsAtTwo o := by
  have hσ : KeepsTable fun s : Faulty Store => s.inner.arrears :=
    Faulty.keepsTable Store.keepsTable
  have hnodup : Sample.faultyBatch.loans.Nodup := by decide
  have haccount := post_accounts_for_writes hσ .standard Sample.today hnodup 0 (.ofWorker 0 0)
    Sample.faultyStore
  have hstops := Sample.stopsAtTwo_post
  rcases hexec : (Sample.faultyBatch.post .standard Sample.today 0 (.ofWorker 0 0) :
    Act (Faulty Store) (PostOutcome × JitterStream)).exec Sample.faultyStore with
      ⟨f | ⟨o, stream⟩, s⟩
  · rw [hexec] at hstops
    cases hstops
  · rw [hexec] at haccount hstops
    obtain ⟨a, ha, hexplains⟩ := haccount
    exact ⟨hσ, hnodup, o, stream, s, a, rfl, ha, hexplains, hstops⟩

end LoanArrears
