-- SUMMARY: A fetch that fails behind full pages ends a run with its error: the pages before it are posted as in a run without faults, and no call is made for a loan behind them.
import LoanArrears.Proofs.Job.Passes
import LoanArrears.Proofs.Job.Prefetch

/-!
# Fetches that fail

The plan `FaultPlan.failingFetch` lets some fetches pass and fails the next one. Its other rules
are for single loans. As long as none of these loans is asked for, the store under the plan shadows
the plain store below it (`Shadows`): it answers alike, and the rules stay as they are. So the pages
before the failing fetch are posted as in a run without faults. That the rules of the other loans
are untouched in the end says that no call was made for any of these loans.
-/

namespace LoanArrears

/-! ## Plans -/

namespace FaultPlan

/-- Some fetches pass, and then one fails. -/
def failingFetch (e : Error) (times : Option Nat) (skip : Nat) (others : FaultPlan) : FaultPlan :=
  ⟨.fetch, none, .error e, times, skip⟩ :: others

/-- Each rule is for a loan that is not served. -/
def Spares (plan : FaultPlan) (served : LoanId → Prop) : Prop :=
  ∀ r ∈ plan, ∃ loan, r.loan = some loan ∧ ¬ served loan

theorem call_of_silent {plan : FaultPlan} {site : Site} {loan : Option LoanId}
    (h : ∀ r ∈ plan, r.isFor site loan = false) : plan.call site loan = (none, plan) := by
  induction plan with
  | nil => rfl
  | cons r rest ih =>
    obtain ⟨hr, hrest⟩ := List.forall_mem_cons.1 h
    rw [call, if_neg (by rw [hr]; exact Bool.false_ne_true), ih hrest]

variable {r : FaultRule} {others : FaultPlan} {served : LoanId → Prop}

/-- A rule for fetches in front of rules for other loans lets all calls for served loans pass. -/
theorem call_loan (hfetch : r.site = .fetch ∧ r.loan = none) (h : others.Spares served)
    (site : Site) {loan : LoanId} (hloan : served loan) :
    call site (some loan) (r :: others) = (none, r :: others) := by
  refine call_of_silent (List.forall_mem_cons.2 ⟨?_, fun r' hr' => ?_⟩)
  · simp [FaultRule.isFor, hfetch.2]
  · obtain ⟨id, hid, hspared⟩ := h r' hr'
    have hne : id ≠ loan := fun heq => hspared (heq ▸ hloan)
    simp [FaultRule.isFor, hid, hne]

/-- It lets all calls for no loan pass but fetches. -/
theorem call_site (hfetch : r.site = .fetch ∧ r.loan = none) (h : others.Spares served)
    {site : Site} (hsite : site ≠ .fetch) : call site none (r :: others) = (none, r :: others) := by
  refine call_of_silent (List.forall_mem_cons.2 ⟨?_, fun r' hr' => ?_⟩)
  · simp [FaultRule.isFor, hfetch.1, hsite.symm]
  · obtain ⟨id, hid, -⟩ := h r' hr'
    simp [FaultRule.isFor, hid]

end FaultPlan

/-! ## Shadows -/

theorem Store.loan_of_exec_terms {loan : LoanId} {s s' : Store} {terms : AgingTerms}
    (h : (BookAccess.terms loan : Act Store AgingTerms).exec s = (.ok terms, s')) :
    terms.loan = loan := by
  rcases s with ⟨_ | tables, tx⟩
  · cases h
  · have hbook : Store.HasBook ⟨some tables, tx⟩ tables.book := ⟨tables.arrears, rfl⟩
    rw [hbook.reads_terms loan] at h
    cases hterms : tables.book.terms loan with
    | error e =>
      rw [hterms] at h
      cases h
    | ok terms' =>
      rw [hterms] at h
      cases h
      exact Book.loan_of_terms hterms

namespace Faulty

/-- The store under a plan stands above a plain store, and what was read are served loans. -/
structure Shadows (plan : FaultPlan) (served : LoanId → Prop) (s : Faulty Store) (t : Store) :
    Prop where
  inner_eq : s.inner = t
  plan_eq : s.plan = plan
  withoutPlanned_eq : s.withoutPlanned = []
  served_loads : ∀ load ∈ s.loads, served load.1

namespace Shadows

variable {plan : FaultPlan} {served : LoanId → Prop}

theorem mirrors_onInner (a : Act Store α) :
    (onInner a : Act (Faulty Store) α).Mirrors (Shadows plan served) a := by
  rintro s _ ⟨rfl, hplan, hnone, hloads⟩
  exact ⟨rfl, rfl, hplan, hnone, hloads⟩

theorem mirrors_meet {site : Site} {loan : Option LoanId}
    (hcall : plan.call site loan = (none, plan)) :
    (meet site loan : Act (Faulty Store) Unit).Mirrors (Shadows plan served) (pure ()) := by
  rintro s t ⟨hinner, rfl, hnone, hloads⟩
  rw [exec_meet, hcall]
  exact ⟨rfl, hinner, rfl, hnone, hloads⟩

/-- An access of the store below, if the plan lets the call pass. -/
theorem mirrors_call {site : Site} {loan : Option LoanId}
    (hcall : plan.call site loan = (none, plan)) (a : Act Store α) :
    (do
      meet site loan
      onInner a : Act (Faulty Store) α).Mirrors (Shadows plan served) a := by
  have h := (@mirrors_meet _ served _ _ hcall).bind fun _ _ => mirrors_onInner a
  rwa [pure_bind] at h

theorem fst_of_mem_countLoad {loan : LoanId} {loads : List (LoanId × Nat)} {load : LoanId × Nat}
    (h : load ∈ countLoad loan loads) : load.1 = loan ∨ ∃ load' ∈ loads, load'.1 = load.1 := by
  induction loads with
  | nil =>
    obtain rfl := List.mem_singleton.1 h
    exact .inl rfl
  | cons head rest ih =>
    rw [countLoad] at h
    split at h
    · next heq =>
      rcases List.mem_cons.1 h with rfl | h
      · exact .inl heq
      · exact .inr ⟨load, List.mem_cons_of_mem _ h, rfl⟩
    · rcases List.mem_cons.1 h with rfl | h
      · exact .inr ⟨_, List.mem_cons_self, rfl⟩
      · exact (ih h).imp_right fun ⟨load', hmem, heq⟩ => ⟨load', List.mem_cons_of_mem _ hmem, heq⟩

/-- The load of a served loan is counted. -/
theorem mirrors_countLoad {loan : LoanId} (hloan : served loan) :
    (modify fun s => { s with loads := countLoad loan s.loads } : Act (Faulty Store) PUnit).Mirrors
      (Shadows plan served) (pure ⟨⟩) := by
  rintro s t ⟨hinner, hplan, hnone, hloads⟩
  refine ⟨rfl, hinner, hplan, hnone, fun load hload => ?_⟩
  rcases fst_of_mem_countLoad hload with heq | ⟨load', hmem, heq⟩
  · exact heq ▸ hloan
  · exact heq ▸ hloads load' hmem

theorem mirrors_countBatch :
    (modify fun s => { s with batches := s.batches + 1 } : Act (Faulty Store) PUnit).Mirrors
      (Shadows plan served) (pure ⟨⟩) := by
  rintro s t ⟨hinner, hplan, hnone, hloads⟩
  exact ⟨rfl, hinner, hplan, hnone, hloads⟩

theorem mirrors_forM_meet {site : Site} {ws : List ArrearsWrite}
    (hcall : ∀ w ∈ ws, plan.call site (some w.loan) = (none, plan)) :
    (ws.forM fun w => meet site (some w.loan) : Act (Faulty Store) Unit).Mirrors
      (Shadows plan served) (pure ()) := by
  induction ws with
  | nil => exact .pure ()
  | cons w ws ih =>
    obtain ⟨hw, hws⟩ := List.forall_mem_cons.1 hcall
    have h := (@mirrors_meet _ served _ _ hw).bind fun _ _ => ih hws
    rwa [pure_bind] at h

/-- All loans have the planned schedules of the plain store. -/
theorem mirrors_planned (loan : LoanId) :
    (do
      if loan ∈ (← get).withoutPlanned then return []
      onInner (BookAccess.plannedInstallments loan) :
        Act (Faulty Store) (List PlannedInstallment)).Mirrors (Shadows plan served)
      (BookAccess.plannedInstallments loan) := by
  intro s t hst
  rw [Act.exec_bind_ok (Act.exec_get s), hst.withoutPlanned_eq, if_neg List.not_mem_nil]
  exact mirrors_onInner _ s t hst

/-- Where the plan lets the calls for served loans pass, they are those of the plain store. -/
theorem mirrorsLoans
    (hcall : ∀ site loan, served loan → plan.call site (some loan) = (none, plan)) :
    MirrorsLoans (Shadows plan served) served where
  terms loan h := by
    have hload := (@mirrors_countLoad plan _ _ h).bind fun _ _ =>
      mirrors_call (hcall .terms loan h) (BookAccess.terms loan : Act Store AgingTerms)
    rwa [pure_bind] at hload
  served_terms loan h s s' terms hterms := by
    obtain ⟨-, s₁, -, hterms⟩ := Act.exists_of_exec_bind_ok hterms
    obtain ⟨-, s₂, -, hterms⟩ := Act.exists_of_exec_bind_ok hterms
    have hinner : (BookAccess.terms loan : Act Store AgingTerms).exec s₂.inner =
        (.ok terms, s'.inner) := by
      rcases hexec : (BookAccess.terms loan : Act Store AgingTerms).exec s₂.inner with ⟨r, t⟩
      rw [onInner, Act.exec_zoom, hexec] at hterms
      cases hterms
      rfl
    rw [Store.loan_of_exec_terms hinner]
    exact h
  plannedInstallments loan h := by
    have hplanned := (@mirrors_meet plan served _ _ (hcall .planned loan h)).bind fun _ _ =>
      mirrors_planned loan
    rwa [pure_bind] at hplanned
  liveInstallments loan h := mirrors_call (hcall .live loan h) _
  consumption loan h := mirrors_call (hcall .consumption loan h) _
  write w h := mirrors_call (hcall .write w.loan h) _
  writeBatch ws h := by
    have hmeets := @mirrors_forM_meet _ served _ ws fun w hw => hcall .batch w.loan (h w hw)
    have hbatch := (@mirrors_countBatch plan served).bind fun _ _ =>
      hmeets.bind fun _ _ => mirrors_onInner (ArrearsAccess.writeBatch ws : Act Store Unit)
    rwa [pure_bind, pure_bind] at hbatch

/-! Fetches -/

section Fetches

variable {e : Error} {times : Option Nat} {skip : Nat} {others : FaultPlan} {s : Faulty Store}
  {b : Book} {t : ArrearsTable} {p : Pager}

/-- A fetch that passes hands out the page of the plain store. -/
theorem exists_next
    (hst : Shadows (.failingFetch e times (skip + 1) others) served s ⟨some ⟨b, t⟩, false⟩)
    (hexhausted : p.exhausted = false) {page? : Option (List LoanId)} {p' : Pager}
    (hnext : (p.next : Act Store (Option (List LoanId) × Pager)).exec ⟨some ⟨b, t⟩, false⟩ =
      (.ok (page?, p'), ⟨some ⟨b, t⟩, false⟩)) :
    ∃ s', (p.next : Act (Faulty Store) (Option (List LoanId) × Pager)).exec s =
        (.ok (page?, p'), s') ∧
      Shadows (.failingFetch e times skip others) served s' ⟨some ⟨b, t⟩, false⟩ := by
  obtain ⟨hinner, hplan, hnone, hloads⟩ := hst
  have hplain : Store.HasBook s.inner b := hinner ▸ ⟨t, rfl⟩
  have hmeet : (meet .fetch none : Act (Faulty Store) Unit).exec s =
      (.ok (), { s with plan := .failingFetch e times skip others }) := by
    rw [exec_meet, hplan]
    rfl
  have hfetch : (BookAccess.candidates p.cursor p.pageSize p.today :
      Act (Faulty Store) (List LoanId)).exec s =
      (.ok (b.candidates p.cursor p.pageSize p.today),
        { s with plan := .failingFetch e times skip others }) := by
    refine (Act.exec_bind_ok hmeet).trans ?_
    rw [onInner, Act.exec_zoom, hplain.reads_candidates]
  rw [Pager.exec_next ⟨t, rfl⟩ hexhausted] at hnext
  refine ⟨{ s with plan := .failingFetch e times skip others }, ?_, hinner, rfl, hnone, hloads⟩
  rw [Pager.exec_next_of_candidates hexhausted hfetch, (Prod.mk.inj hnext).1]

/-- The fetch that fails. -/
theorem exists_next_error
    (hst : Shadows (.failingFetch e times 0 others) served s ⟨some ⟨b, t⟩, false⟩)
    (htimes : times ≠ some 0) (hexhausted : p.exhausted = false) :
    ∃ times' s', (p.next : Act (Faulty Store) (Option (List LoanId) × Pager)).exec s =
        (.error (.error e), s') ∧
      Shadows (.failingFetch e times' 0 others) served s' ⟨some ⟨b, t⟩, false⟩ := by
  obtain ⟨hinner, hplan, hnone, hloads⟩ := hst
  have hcall : ∃ times', (FaultPlan.failingFetch e times 0 others).call .fetch none =
      (some (.error e), .failingFetch e times' 0 others) := by
    rcases times with _ | _ | n
    · exact ⟨none, rfl⟩
    · exact absurd rfl htimes
    · exact ⟨some n, rfl⟩
  obtain ⟨times', hcall⟩ := hcall
  have hmeet : (meet .fetch none : Act (Faulty Store) Unit).exec s =
      (.error (.error e), { s with plan := .failingFetch e times' 0 others }) := by
    rw [exec_meet, hplan, hcall]
  exact ⟨times', _, Pager.exec_next_error hexhausted (Act.exec_bind_error hmeet), hinner, rfl,
    hnone, hloads⟩

end Fetches

/-! The bulk pass and the connections -/

theorem mirrors_connect (hcall : plan.call .connect none = (none, plan)) :
    (Connections.connect : Act (Faulty Store) Unit).Mirrors (Shadows plan served)
      Connections.connect :=
  mirrors_call hcall _

theorem mirrors_bulkWork (hcall : ∀ site, site ≠ .fetch → plan.call site none = (none, plan))
    (today : Date) :
    (Job.bulkWork today : Act (Faulty Store) (Nat × Nat)).Mirrors (Shadows plan served)
      (Job.bulkWork today) := by
  refine .bind (mirrors_connect (hcall .connect (by decide))) fun _ _ => ?_
  refine .bind (mirrors_call (hcall .reset (by decide)) _) fun cleared _ => ?_
  exact .bind (mirrors_call (hcall .bulk (by decide)) _) fun bulkRows _ => .pure _

end Shadows

end Faulty

/-! ## Pages in front of the fetch that fails -/

theorem Pager.mirrors_drainUpTo [BookAccess σ] [BookAccess τ] {R : σ → τ → Prop}
    (h : ∀ after pageSize today,
      (BookAccess.candidates after pageSize today : Act σ (List LoanId)).Mirrors R
        (BookAccess.candidates after pageSize today)) (p : Pager) (limit : Nat) :
    (p.drainUpTo limit : Act σ (List (List LoanId) × Pager)).Mirrors R (p.drainUpTo limit) := by
  induction limit generalizing p with
  | zero => exact .pure _
  | succ limit ih =>
    refine .bind (h _ _ _).next fun x _ => ?_
    rcases x with ⟨_ | page, p'⟩
    · exact .pure _
    · exact .bind (ih p') fun pages _ => .pure _

/-- The pages of a pager do not depend on the arrears. -/
theorem Pager.exec_drainUpTo_of_table {b : Book} {t t' : ArrearsTable} {p p' : Pager} {limit : Nat}
    {pages : List (List LoanId)}
    (h : (p.drainUpTo limit : Act Store (List (List LoanId) × Pager)).exec ⟨some ⟨b, t⟩, false⟩ =
      (.ok (pages, p'), ⟨some ⟨b, t⟩, false⟩)) :
    (p.drainUpTo limit : Act Store (List (List LoanId) × Pager)).exec ⟨some ⟨b, t'⟩, false⟩ =
      (.ok (pages, p'), ⟨some ⟨b, t'⟩, false⟩) := by
  have hpages := @mirrors_drainUpTo Store Store _ _
    (fun s s' => s = ⟨some ⟨b, t'⟩, false⟩ ∧ s' = ⟨some ⟨b, t⟩, false⟩) ?_ p limit
  · obtain ⟨s, hexec, rfl, -⟩ := hpages.exists_exec ⟨rfl, rfl⟩ h
    exact hexec
  · rintro after pageSize today s s' ⟨rfl, rfl⟩
    have hreads (t : ArrearsTable) :=
      Store.HasBook.reads_candidates (s := ⟨some ⟨b, t⟩, false⟩) ⟨t, rfl⟩ after pageSize today
    rw [hreads, hreads]
    exact ⟨rfl, rfl, rfl⟩

section Abort

variable {b : Book} {today : Date} {config : JobParameters} {served : LoanId → Prop} {e : Error}
  {times : Option Nat} {others : FaultPlan}

/-- A page of served loans is posted as on the plain store. -/
theorem Faulty.Shadows.exists_wavePosted {plan : FaultPlan} {t : ArrearsTable} {s : Faulty Store}
    (hst : Shadows plan served s ⟨some ⟨b, t⟩, false⟩)
    (hmirrors : MirrorsLoans (Shadows plan served) served) {page : List LoanId}
    (hserved : ∀ id ∈ page, served id) (hdata : b.FailsByData today page)
    (streams : List JitterStream) :
    ∃ os streams' s', WavePosted config today streams s
        (SubBatch.ofPage page config.workers config.batchSize) os streams' s' ∧
      Shadows plan served s' ⟨some ⟨b, t.applyAll (b.writesOf today page)⟩, false⟩ := by
  let wave := SubBatch.ofPage page config.workers config.batchSize
  have hloans : wave.flatMap (·.loans) = page := SubBatch.flatMap_ofPage ..
  have hbatches : ∀ batch ∈ wave, ∀ loan ∈ batch.loans, served loan := by
    intro batch hbatch loan hloan
    exact hserved loan (hloans ▸ List.mem_flatMap.2 ⟨batch, hbatch, hloan⟩)
  have hwaves : (Job.postWave config today ⟨.new today, streams⟩ wave :
      Act (Faulty Store) Job.Progress).Mirrors (Shadows plan served)
      (Job.postWave config today ⟨.new today, streams⟩ wave) := hmirrors.postWave hbatches _
  obtain ⟨q, hplain, -⟩ :=
    Job.exec_postWave config wave ⟨.new today, streams⟩ t (hloans.symm ▸ hdata)
  obtain ⟨os, streams', s', hwave⟩ :=
    @LoanArrears.exists_wavePosted _ _ _ config today wave streams s
  have hrelated := (hwaves s _ hst).2
  rw [hwave.exec_postWave, hplain, hloans] at hrelated
  exact ⟨os, streams', s', hwave, hrelated⟩

/-- Full pages are posted as on the plain store, and the fetch behind them fails. -/
theorem Faulty.Shadows.exists_pagesPosted (htimes : times ≠ some 0) (hothers : others.Spares served)
    {n limit : Nat} (hlimit : n < limit) {p p' : Pager} (hexhausted : p.exhausted = false)
    (htoday : p.today = today) {pages : List (List LoanId)} (hn : pages.length = n)
    (hfull : ∀ page ∈ pages, p.pageSize ≤ page.length) (hserved : ∀ id ∈ pages.flatten, served id)
    (hdata : b.FailsByData today pages.flatten) {t : ArrearsTable}
    (hdrain : (p.drainUpTo n : Act Store (List (List LoanId) × Pager)).exec
      ⟨some ⟨b, t⟩, false⟩ = (.ok (pages, p'), ⟨some ⟨b, t⟩, false⟩))
    {s : Faulty Store}
    (hst : Shadows (.failingFetch e times n others) served s ⟨some ⟨b, t⟩, false⟩)
    (streams : List JitterStream) :
    ∃ posted times' s',
      PagesPosted config today limit p streams s posted (some (.error e)) s' ∧
      Shadows (.failingFetch e times' 0 others) served s'
        ⟨some ⟨b, t.applyAll (b.writesOf today pages.flatten)⟩, false⟩ := by
  induction n generalizing limit p pages t s streams with
  | zero =>
    obtain rfl := List.length_eq_zero_iff.1 hn
    obtain ⟨limit, rfl⟩ := Nat.exists_eq_add_of_lt hlimit
    rw [Nat.zero_add]
    obtain ⟨times', s', hnext, hst'⟩ := hst.exists_next_error htimes hexhausted
    exact ⟨[], times', s', .broken hnext, hst'⟩
  | succ n ih =>
    obtain ⟨limit, rfl⟩ : ∃ limit', limit = limit' + 1 :=
      ⟨limit - 1, by omega⟩
    rw [Pager.drainUpTo] at hdrain
    obtain ⟨⟨page?, p₁⟩, t₁, hnext, hrest⟩ := Act.exists_of_exec_bind_ok hdrain
    cases page? with
    | none =>
      cases hrest
      cases hn
    | some page =>
      obtain ⟨rfl, rfl⟩ := Pager.eq_advance_of_next ⟨t, rfl⟩ hnext
      obtain ⟨⟨pages', p₂⟩, t₂, hrest, hend⟩ := Act.exists_of_exec_bind_ok hrest
      cases hend
      obtain ⟨hpage, hfull⟩ := List.forall_mem_cons.1 hfull
      rw [List.flatten_cons] at hserved hdata ⊢
      obtain ⟨s₁, hnext', hst₁⟩ := hst.exists_next hexhausted hnext
      have hmirrors : MirrorsLoans (Shadows (.failingFetch e times n others) served) served :=
        mirrorsLoans fun site loan hloan => FaultPlan.call_loan ⟨rfl, rfl⟩ hothers site hloan
      obtain ⟨os, streams', s₂, hwave, hst₂⟩ := hst₁.exists_wavePosted hmirrors
        (fun id hid => hserved id (List.mem_append_left _ hid))
        (fun id hid => hdata id (List.mem_append_left _ hid)) streams
      obtain ⟨posted, times', s', hposted, hst'⟩ := ih (Nat.lt_of_succ_lt_succ hlimit)
        ((p.exhausted_advance page).trans (decide_eq_false (Nat.not_lt.2 hpage)))
        ((p.today_advance page).trans htoday) (Nat.succ.inj hn)
        (fun page' hpage' => (p.pageSize_advance page).symm ▸ hfull page' hpage')
        (fun id hid => hserved id (List.mem_append_right _ hid))
        (fun id hid => hdata id (List.mem_append_right _ hid))
        (Pager.exec_drainUpTo_of_table hrest) hst₂ streams'
      refine ⟨_, times', s', .posted hnext' hwave hposted, ?_⟩
      rw [Book.applyAll_writesOf_append]
      exact hst'

end Abort

/-! ## Runs -/

namespace Pager

/-- There are fewer full pages than the pages that a run asks for. -/
theorem length_lt_pageLimit {b : Book} (hids : ∀ id l, b.loans.find? id = some l → id < Bound.int64)
    {p : Pager} (hcursor : 0 ≤ p.cursor) {pages : List (List LoanId)}
    (hne : ∀ page ∈ pages, 1 ≤ page.length) (hpages : pages.flatten <+: p.rest b) :
    pages.length < pageLimit := by
  have hlength : pages.length ≤ pages.flatten.length := by
    have hsum := List.length_le_sum_of_one_le (pages.map List.length) (List.forall_mem_map.2 hne)
    rw [List.length_map] at hsum
    rw [List.length_flatten]
    exact hsum
  exact Nat.lt_of_le_of_lt (Nat.le_trans hlength hpages.length_le) (length_rest_lt hids hcursor)

end Pager

/-- What a run leaves of the table when it posts some of the loans only. -/
theorem Book.find?_applyAll_of_subset {b : Book} {today : Date} {t₀ t₁ : ArrearsTable}
    (hjob : ∀ id, t₀.find? id = b.jobRow? today id)
    (hbulk : ∀ id, t₁.find? id = b.bulkRow? today id) {loans : List LoanId}
    (hloans : loans ⊆ b.streamed today) (id : LoanId) :
    (t₁.applyAll (b.writesOf today loans)).find? id =
      if id ∈ loans then t₀.find? id else t₁.find? id := by
  rw [find?_applyAll_writesOf, hjob, hbulk, jobRow?]
  cases b.entryOf id today with
  | error f => exact (ite_self _).symm
  | ok e =>
    by_cases hid : id ∈ loans
    · simp only [hid, hloans hid, if_true]
    · simp only [hid, if_false]

namespace Sample

/-- Whatever is asked about loan 3 finds no disk. -/
def withoutThree : FaultPlan :=
  [Site.terms, .planned, .live, .consumption, .write, .batch].map fun site =>
    ⟨site, some 3, .error noDisk, none, 0⟩

/-- The fetch behind the page of loan 2 finds no disk. -/
def secondFetchFailing : Job (Faulty Store) :=
  ⟨single, today, .idle, .ofStore ⟨some ⟨twoReplaying, Table.empty⟩, false⟩
    (.failingFetch noDisk (some 1) 1 withoutThree) []⟩

theorem spares_withoutThree : withoutThree.Spares (· ∈ [[2]].flatten) := by
  intro r hr
  obtain ⟨site, -, rfl⟩ := List.mem_map.1 hr
  exact ⟨3, rfl, by decide⟩

/-- The first page has loan 2. -/
theorem exec_drainUpTo_twoReplaying :
    ((Pager.new today 1).drainUpTo 1 : Act Store (List (List LoanId) × Pager)).exec
        ⟨some ⟨twoReplaying, Table.empty⟩, false⟩ =
      (.ok ([[2]], ⟨today, 1, 2, false, 1, 1⟩), ⟨some ⟨twoReplaying, Table.empty⟩, false⟩) := by
  decide +kernel

/-- Of the three loans the bulk insert adds the row of loan 1 only. -/
theorem exists_bulkInsert_twoReplaying :
    ∃ t, twoReplaying.bulkInsert today Table.empty = .ok (1, t) ∧ (t.find? 1).isSome ∧
      t.find? 3 = none :=
  ⟨_, rfl, rfl, rfl⟩

end Sample

/-- A fetch that fails behind full pages, while nothing else does, ends the run with its error, and
    so it does with fetches ahead of the postings. What is left are the rows of the bulk insert,
    and for the loans of the pages in front of it what a run without faults leaves. No call is made
    for any other loan: none is read, and faults that the plan has for its calls do not come. -/
theorem run_aborts_at_failed_fetch {b : Book} (hb : b.IsBuilt) {t t₁ : ArrearsTable}
    {job : Job (Faulty Store)} {bulkRows n : Nat}
    (hbulk : b.bulkInsert job.today Table.empty = .ok (bulkRows, t₁)) {pages : List (List LoanId)}
    {pager : Pager}
    (hpages : ((Pager.new job.today job.config.pageSize).drainUpTo n :
      Act Store (List (List LoanId) × Pager)).exec ⟨some ⟨b, t⟩, false⟩ =
        (.ok (pages, pager), ⟨some ⟨b, t⟩, false⟩))
    (hn : pages.length = n)
    (hfull : ∀ page ∈ pages, page.length = (Pager.new job.today job.config.pageSize).pageSize)
    {e : Error} {times : Option Nat} (htimes : times ≠ some 0) {others : FaultPlan}
    (hothers : others.Spares (· ∈ pages.flatten))
    (hstore : job.store = .ofStore ⟨some ⟨b, t⟩, false⟩ (.failingFetch e times n others) []) :
    ∃ report phase t₀ t' job',
      (Job.run : Act (Job Store) RunReport).exec
          ⟨job.config, job.today, job.phase, ⟨some ⟨b, t⟩, false⟩⟩ =
        (.ok report, ⟨job.config, job.today, phase, ⟨some ⟨b, t₀⟩, false⟩⟩) ∧
      (Job.run : Act (Job (Faulty Store)) RunReport).exec job = (.error (.error e), job') ∧
      (∀ capacity turns,
        (Job.runAhead capacity turns : Act (Job (Faulty Store)) RunReport).exec job =
          (.error (.error e), job')) ∧
      job'.phase = .idle ∧ job'.store.inner = ⟨some ⟨b, t'⟩, false⟩ ∧
      (∀ id, t'.find? id = if id ∈ pages.flatten then t₀.find? id else t₁.find? id) ∧
      (∀ load ∈ job'.store.loads, load.1 ∈ pages.flatten) ∧ job'.store.plan.tail = others := by
  obtain ⟨config, today, phase, _⟩ := job
  cases hstore
  let served (id : LoanId) : Prop := id ∈ pages.flatten
  have hids (id : LoanId) (l : Loan) (hl : b.loans.find? id = some l) : id < Bound.int64 :=
    (hb.sound.ids id l hl).2
  have hsize : 1 ≤ (Pager.new today config.pageSize).pageSize := Nat.le_max_right config.pageSize 1
  have hfront := Pager.flatten_drainUpTo_isPrefix ⟨t, rfl⟩ hsize hpages
  have hdata := hb.sound.failsByData today
  -- The run without faults.
  obtain ⟨report, t₀, hrun, -, -, hrows⟩ := @Job.exists_run b today config phase hids
    (Book.bulkAccepts_of_bulkInsert hbulk) hdata t
  -- The run with faults, pass by pass.
  have hcall (site : Site) (hsite : site ≠ .fetch) :
      (FaultPlan.failingFetch e times n others).call site none =
        (none, .failingFetch e times n others) := FaultPlan.call_site ⟨rfl, rfl⟩ hothers hsite
  have hstart : Faulty.Shadows (.failingFetch e times n others) served
      (.ofStore ⟨some ⟨b, t⟩, false⟩ (.failingFetch e times n others) []) ⟨some ⟨b, t⟩, false⟩ :=
    ⟨rfl, rfl, rfl, List.forall_mem_nil _⟩
  have hwork := Job.exec_bulkWork (b := b) today t
  rw [hbulk] at hwork
  obtain ⟨s₁, hfilled, hst₁⟩ :=
    (Faulty.Shadows.mirrors_bulkWork hcall today).exists_exec hstart hwork
  obtain ⟨s₂, hconnected, hst₂⟩ := ((Faulty.Shadows.mirrors_connect
    (hcall .connect (by decide))).connectAll config).exists_exec hst₁ (Job.exec_connectAll config _)
  obtain ⟨posted, times', s', hposted, hst'⟩ := hst₂.exists_pagesPosted htimes hothers
    (hn ▸ Pager.length_lt_pageLimit hids (Int.le_refl 0)
      (fun page hpage => hfull page hpage ▸ hsize) hfront)
    rfl rfl hn (fun page hpage => Nat.le_of_eq (hfull page hpage).symm) (fun id hid => hid)
    (fun id hid => hdata id (hfront.subset hid)) (Pager.exec_drainUpTo_of_table hpages)
    config.streams
  obtain ⟨phase', habort, hidle⟩ :=
    (Course.Happened.streamed hfilled hconnected hposted).exists_exec_run phase
  refine ⟨report, .idle, t₀, _, ⟨config, today, phase', s'⟩, hrun, habort, fun capacity turns => ?_,
    hidle ?_, hst'.inner_eq, Book.find?_applyAll_of_subset hrows (Book.find?_of_bulkInsert hbulk)
      hfront.subset, hst'.served_loads, ?_⟩
  · rw [Job.runAhead_eq_run (Faulty.fetchesApart Store.fetchesApart)]
    exact habort
  · intro crash hcrash
    cases hcrash
  · rw [hst'.plan_eq]
    rfl

/-- Loan 1 has its row of the bulk insert, and the fetch of the page of loan 3 fails: that loan has
    no row, and its faults do not come. -/
theorem run_aborts_at_failed_fetch_of_sample :
    Sample.twoReplaying.IsBuilt ∧ Sample.withoutThree.Spares (· ∈ [[2]].flatten) ∧
    ∃ t job,
      (Job.run : Act (Job (Faulty Store)) RunReport).exec Sample.secondFetchFailing =
        (.error (.error Sample.noDisk), job) ∧
      job.phase = .idle ∧ job.store.inner = ⟨some ⟨Sample.twoReplaying, t⟩, false⟩ ∧
      (t.find? 1).isSome ∧ t.find? 3 = none ∧ job.store.plan.tail = Sample.withoutThree := by
  obtain ⟨t₁, hinsert, hone, hthree⟩ := Sample.exists_bulkInsert_twoReplaying
  obtain ⟨-, -, t₀, t, job, -, hrun, -, hidle, hinner, hrows, -, hplan⟩ :=
    @run_aborts_at_failed_fetch Sample.twoReplaying Sample.isBuilt_twoReplaying Table.empty t₁
      Sample.secondFetchFailing 1 1 hinsert [[2]] _ Sample.exec_drainUpTo_twoReplaying rfl
      (List.forall_mem_singleton.2 rfl) Sample.noDisk (some 1) (by decide) Sample.withoutThree
      Sample.spares_withoutThree rfl
  refine ⟨Sample.isBuilt_twoReplaying, Sample.spares_withoutThree, t, job, hrun, hidle, hinner, ?_,
    ?_, hplan⟩
  · rw [hrows, if_neg (by decide)]
    exact hone
  · rw [hrows, if_neg (by decide)]
    exact hthree

end LoanArrears
