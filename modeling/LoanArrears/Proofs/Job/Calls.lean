-- SUMMARY: The calls that a posting makes of a store: made in order until one fails for good, what they answer and refuse, and what they come to.
import LoanArrears.Proofs.Job.Steps
import LoanArrears.Proofs.Store.Keeping

/-!
# Calls of a posting

A posting makes calls of two kinds: a read for each loan, and, if its batch is refused, a write for
each loan. Calls of a kind are made in order, each with its retries, until one of them fails for
good. `CallsMade` ties them to the stores before and after. Each call was answered, or refused for
bad data, but for the last one if it failed, and `CallKind.outcomeAfter` is what they make of the
outcome of a posting.
-/

namespace LoanArrears

/-! ## Calls -/

namespace RetryResult

/-- The error that ended the attempts for good. -/
def failure? (r : RetryResult α) : Option Error :=
  match r.outcome with
  | .error e => if e.class = .data then none else some e
  | .ok _ => none

/-- The bad data that the attempts ended with. -/
def refusal? (r : RetryResult α) : Option Error :=
  match r.outcome with
  | .error e => if e.class = .data then some e else none
  | .ok _ => none

/-- Attempts end with an answer, with bad data, or for good. -/
theorem cases_outcome (r : RetryResult α) :
    (∃ v, r.outcome = .ok v ∧ r.failure? = none ∧ r.refusal? = none) ∨
    (∃ e, r.outcome = .error e ∧ e.class = .data ∧ r.failure? = none ∧ r.refusal? = some e) ∨
    (∃ e, r.outcome = .error e ∧ e.class ≠ .data ∧ r.failure? = some e ∧ r.refusal? = none) := by
  unfold failure? refusal?
  cases r.outcome with
  | ok v => exact .inl ⟨v, rfl, rfl, rfl⟩
  | error e =>
    by_cases hdata : e.class = .data
    · exact .inr (.inl ⟨e, rfl, hdata, if_pos hdata, if_pos hdata⟩)
    · exact .inr (.inr ⟨e, rfl, hdata, if_neg hdata, if_neg hdata⟩)

theorem refusal?_eq_some_iff {r : RetryResult α} {e : Error} :
    r.refusal? = some e ↔ r.outcome = .error e ∧ e.class = .data := by
  rcases r.cases_outcome with ⟨v, hr, -, href⟩ | ⟨e', hr, hdata, -, href⟩ | ⟨e', hr, hdata, -, href⟩
  · simp [hr, href]
  · rw [hr, href, Option.some.injEq, Except.error.injEq]
    exact ⟨fun h => ⟨h, h ▸ hdata⟩, And.left⟩
  · rw [hr, href]
    constructor
    · intro h
      cases h
    · rintro ⟨h, hdata'⟩
      cases h
      exact absurd hdata' hdata

theorem of_failure? {r : RetryResult α} {e : Error} (h : r.failure? = some e) :
    r.outcome = .error e ∧ e.class ≠ .data ∧ r.refusal? = none := by
  rcases r.cases_outcome with ⟨v, -, hf, -⟩ | ⟨e', -, -, hf, -⟩ | ⟨e', hr, hdata, hf, href⟩
  · rw [h] at hf
    cases hf
  · rw [h] at hf
    cases hf
  · rw [h] at hf
    cases hf
    exact ⟨hr, hdata, href⟩

theorem of_failure?_eq_none {r : RetryResult α} (h : r.failure? = none) :
    (∃ v, r.outcome = .ok v ∧ r.refusal? = none) ∨
    (∃ e, r.outcome = .error e ∧ e.class = .data ∧ r.refusal? = some e) := by
  rcases r.cases_outcome with ⟨v, hr, -, href⟩ | ⟨e, hr, hdata, -, href⟩ | ⟨e, -, -, hf, -⟩
  · exact .inl ⟨v, hr, href⟩
  · exact .inr ⟨e, hr, hdata, href⟩
  · rw [h] at hf
    cases hf

end RetryResult

/-- What a call was made for, and how its attempts ended. -/
structure Call (α β : Type) where
  item : α
  result : RetryResult β

/-- The calls that are made for items in order, from one store to another, until one of them
    fails for good. -/
inductive CallsMade (policy : RetryPolicy) (act : α → Act σ β) :
    σ → JitterStream → List α → List (Call α β) → σ → JitterStream → Prop where
  | done {s : σ} {stream : JitterStream} : CallsMade policy act s stream [] [] s stream
  | failed {s s' : σ} {stream : JitterStream} {a : α} {items : List α} {r : RetryResult β}
    {e : Error} (hcall : (retry policy stream (act a)).exec s = (.ok r, s'))
    (hfailure : r.failure? = some e) :
    CallsMade policy act s stream (a :: items) [⟨a, r⟩] s' r.stream
  | next {s s₁ s' : σ} {stream stream' : JitterStream} {a : α} {items : List α}
    {r : RetryResult β} {calls : List (Call α β)}
    (hcall : (retry policy stream (act a)).exec s = (.ok r, s₁)) (hgoes : r.failure? = none)
    (hrest : CallsMade policy act s₁ r.stream items calls s' stream') :
    CallsMade policy act s stream (a :: items) (⟨a, r⟩ :: calls) s' stream'

/-- The answers of calls. -/
def answers (calls : List (Call α β)) : List β :=
  calls.filterMap (·.result.outcome.toOption)

/-- What was answered. -/
def answered (calls : List (Call α β)) : List α :=
  (calls.filter (·.result.outcome.isOk)).map (·.item)

/-- What was skipped for bad data. -/
def refused (loanOf : α → LoanId) (calls : List (Call α β)) : List SkippedLoan :=
  calls.filterMap fun c => c.result.refusal?.map (⟨loanOf c.item, ·⟩)

/-- What failed for good. -/
def failed? (calls : List (Call α β)) : Option (α × Error) :=
  calls.findSome? fun c => c.result.failure?.map (c.item, ·)

def retriesOf (calls : List (Call α β)) : Nat :=
  (calls.map (·.result.retries)).sum

@[simp] theorem answered_nil : answered ([] : List (Call α β)) = [] := rfl

@[simp] theorem refused_nil (loanOf : α → LoanId) :
    refused loanOf ([] : List (Call α β)) = [] := rfl

@[simp] theorem failed?_nil : failed? ([] : List (Call α β)) = none := rfl

@[simp] theorem retriesOf_nil : retriesOf ([] : List (Call α β)) = 0 := rfl

section Cons

variable {a : α} {r : RetryResult β} {calls : List (Call α β)}

theorem answered_cons_of_ok {v : β} (h : r.outcome = .ok v) :
    answered (⟨a, r⟩ :: calls) = a :: answered calls := by
  simp [answered, h, Except.isOk, Except.toBool]

theorem answered_cons_of_error {e : Error} (h : r.outcome = .error e) :
    answered (⟨a, r⟩ :: calls) = answered calls := by
  simp [answered, h, Except.isOk, Except.toBool]

theorem answers_cons_of_ok {v : β} (h : r.outcome = .ok v) :
    answers (⟨a, r⟩ :: calls) = v :: answers calls := by
  simp [answers, h, Except.toOption]

theorem answers_cons_of_error {e : Error} (h : r.outcome = .error e) :
    answers (⟨a, r⟩ :: calls) = answers calls := by
  simp [answers, h, Except.toOption]

theorem refused_cons_of_none (h : r.refusal? = none) (loanOf : α → LoanId) :
    refused loanOf (⟨a, r⟩ :: calls) = refused loanOf calls := by
  simp [refused, h]

theorem refused_cons_of_some {e : Error} (h : r.refusal? = some e) (loanOf : α → LoanId) :
    refused loanOf (⟨a, r⟩ :: calls) = ⟨loanOf a, e⟩ :: refused loanOf calls := by
  simp [refused, h]

theorem failed?_cons_of_none (h : r.failure? = none) :
    failed? (⟨a, r⟩ :: calls) = failed? calls := by
  simp [failed?, h]

theorem failed?_cons_of_some {e : Error} (h : r.failure? = some e) :
    failed? (⟨a, r⟩ :: calls) = some (a, e) := by
  simp [failed?, h]

theorem retriesOf_cons (a : α) (r : RetryResult β) (calls : List (Call α β)) :
    retriesOf (⟨a, r⟩ :: calls) = r.retries + retriesOf calls := by
  simp [retriesOf]

theorem mem_answers {v : β} : v ∈ answers calls ↔ ∃ c ∈ calls, c.result.outcome = .ok v := by
  have hsome (r : RetryResult β) : r.outcome.toOption = some v ↔ r.outcome = .ok v := by
    cases r.outcome <;> simp [Except.toOption]
  simp [answers, hsome]

theorem mem_answered : a ∈ answered calls ↔
    ∃ c ∈ calls, c.item = a ∧ ∃ v, c.result.outcome = .ok v := by
  have hok (r : RetryResult β) : r.outcome.isOk = true ↔ ∃ v, r.outcome = .ok v := by
    cases r.outcome <;> simp [Except.isOk, Except.toBool]
  simp only [answered, List.mem_map, List.mem_filter, hok]
  exact exists_congr fun c => by rw [and_assoc, and_comm (a := c.item = a)]

/-- What is skipped is the item of a call that ended with bad data. -/
theorem mem_refused {loanOf : α → LoanId} {x : SkippedLoan} :
    x ∈ refused loanOf calls ↔ ∃ c ∈ calls, loanOf c.item = x.loan ∧
      c.result.outcome = .error x.reason ∧ x.reason.class = .data := by
  rw [refused, List.mem_filterMap]
  refine exists_congr fun c => and_congr_right fun _ => ?_
  rw [Option.map_eq_some_iff]
  constructor
  · rintro ⟨e, he, rfl⟩
    exact ⟨rfl, RetryResult.refusal?_eq_some_iff.1 he⟩
  · rintro ⟨hloan, he⟩
    refine ⟨x.reason, RetryResult.refusal?_eq_some_iff.2 he, ?_⟩
    rw [hloan]

/-- If no call failed for good, what was answered is what was not skipped. -/
theorem answered_eq_filter {loanOf : α → LoanId} {skipped : List LoanId}
    (hgoes : ∀ c ∈ calls, c.result.failure? = none)
    (hrefused : ∀ x ∈ refused loanOf calls, x.loan ∈ skipped)
    (hanswered : ∀ a ∈ answered calls, loanOf a ∉ skipped) :
    answered calls = (calls.map (·.item)).filter fun a => loanOf a ∉ skipped := by
  rw [List.filter_map, answered]
  refine congrArg _ (List.filter_congr fun c hc => ?_)
  rcases RetryResult.of_failure?_eq_none (hgoes c hc) with ⟨v, hr, -⟩ | ⟨e, hr, hdata, -⟩
  · have hmem : c.item ∈ answered calls := mem_answered.2 ⟨c, hc, rfl, v, hr⟩
    rw [hr]
    exact (decide_eq_true_iff.2 (hanswered c.item hmem)).symm
  · have hmem : (⟨loanOf c.item, e⟩ : SkippedLoan) ∈ refused loanOf calls :=
      mem_refused.2 ⟨c, hc, rfl, hr, hdata⟩
    rw [hr]
    exact (decide_eq_false_iff_not.2 fun hout => hout (hrefused _ hmem)).symm

end Cons

namespace CallsMade

variable {policy : RetryPolicy} {act : α → Act σ β} {s s' : σ} {stream stream' : JitterStream}
  {items : List α} {calls : List (Call α β)}

/-- Every item is answered or refused, unless a call failed for good. -/
theorem exists_perm (h : CallsMade policy act s stream items calls s' stream')
    (loanOf : α → LoanId) :
    ∃ rest, (failed? calls = none → rest = []) ∧
      ((answered calls).map loanOf ++ (refused loanOf calls).map SkippedLoan.loan ++ rest).Perm
        (items.map loanOf) := by
  induction h with
  | done => exact ⟨[], fun _ => rfl, .nil⟩
  | @failed s s' stream a items r e hcall hfailure =>
    obtain ⟨hr, -, href⟩ := RetryResult.of_failure? hfailure
    refine ⟨(a :: items).map loanOf, fun hgoes => ?_, ?_⟩
    · rw [failed?_cons_of_some hfailure] at hgoes
      cases hgoes
    · rw [answered_cons_of_error hr, refused_cons_of_none href]
      exact .refl _
  | @next s s₁ s' stream stream' a items r calls hcall hgoes hrest ih =>
    obtain ⟨rest, hnone, hperm⟩ := ih
    refine ⟨rest, fun hall => hnone ?_, ?_⟩
    · rwa [failed?_cons_of_none hgoes] at hall
    rcases RetryResult.of_failure?_eq_none hgoes with ⟨v, hr, href⟩ | ⟨e, hr, -, href⟩
    · rw [answered_cons_of_ok hr, refused_cons_of_none href]
      exact hperm.cons (loanOf a)
    · rw [answered_cons_of_error hr, refused_cons_of_some href, List.map_cons, List.append_assoc,
        List.cons_append]
      refine List.perm_middle.trans ?_
      rw [← List.append_assoc]
      exact hperm.cons (loanOf a)

theorem answered_sublist (h : CallsMade policy act s stream items calls s' stream') :
    (answered calls).Sublist items := by
  induction h with
  | done => exact .slnil
  | @failed s s' stream a items r e hcall hfailure =>
    rw [answered_cons_of_error (RetryResult.of_failure? hfailure).1]
    exact List.nil_sublist _
  | @next s s₁ s' stream stream' a items r calls hcall hgoes hrest ih =>
    cases hr : r.outcome with
    | ok v =>
      rw [answered_cons_of_ok hr]
      exact ih.cons_cons a
    | error e =>
      rw [answered_cons_of_error hr]
      exact ih.cons a

/-- The call that failed for good is the last one. -/
theorem exists_of_failed? (h : CallsMade policy act s stream items calls s' stream') {a : α}
    {e : Error} (hfailed : failed? calls = some (a, e)) :
    ∃ before r rest, calls = before ++ [⟨a, r⟩] ∧ items = before.map (·.item) ++ a :: rest ∧
      r.outcome = .error e ∧ ∀ c ∈ before, c.result.failure? = none := by
  induction h with
  | done => cases hfailed
  | @failed s s' stream a' items r e' hcall hfailure =>
    rw [failed?_cons_of_some hfailure] at hfailed
    cases hfailed
    exact ⟨[], r, items, rfl, rfl, (RetryResult.of_failure? hfailure).1, List.forall_mem_nil _⟩
  | @next s s₁ s' stream stream' a' items r calls hcall hgoes hrest ih =>
    rw [failed?_cons_of_none hgoes] at hfailed
    obtain ⟨before, r', rest, rfl, rfl, hr', hbefore⟩ := ih hfailed
    exact ⟨⟨a', r⟩ :: before, r', rest, rfl, rfl, hr', List.forall_mem_cons.2 ⟨hgoes, hbefore⟩⟩

theorem table_of_leaves {table : σ → ArrearsTable} (hact : ∀ a, (act a).Leaves table)
    (h : CallsMade policy act s stream items calls s' stream') : table s' = table s := by
  induction h with
  | done => rfl
  | failed hcall hfailure => exact (hact _).table_of_retry hcall
  | next hcall hgoes hrest ih => exact ih.trans ((hact _).table_of_retry hcall)

theorem exists_exec_of_mem (h : CallsMade policy act s stream items calls s' stream')
    {c : Call α β} (hc : c ∈ calls) :
    ∃ s₁ stream₁ s₂, (retry policy stream₁ (act c.item)).exec s₁ = (.ok c.result, s₂) := by
  induction h with
  | done => cases hc
  | failed hcall hfailure =>
    rw [List.mem_singleton.1 hc]
    exact ⟨_, _, _, hcall⟩
  | next hcall hgoes hrest ih =>
    rcases List.mem_cons.1 hc with rfl | hc
    · exact ⟨_, _, _, hcall⟩
    · exact ih hc

section Reads

variable [BookAccess σ] {today : Date} {mode : AgingMode} {loans : List LoanId}
  {reads : List (Call LoanId ArrearsWrite)}

theorem loan_of_mem
    (h : CallsMade policy (computeWrite · today mode) s stream loans reads s' stream')
    {c : Call LoanId ArrearsWrite} (hc : c ∈ reads) {w : ArrearsWrite}
    (hw : c.result.outcome = .ok w) : w.loan = c.item := by
  obtain ⟨s₁, stream₁, s₂, hcall⟩ := h.exists_exec_of_mem hc
  obtain ⟨s₃, hexec⟩ := exists_exec_of_retry hcall hw
  exact loan_of_exec_computeWrite hexec

/-- The writes that were computed are those of the loans that were answered. -/
theorem map_loan_answers
    (h : CallsMade policy (computeWrite · today mode) s stream loans reads s' stream') :
    (answers reads).map ArrearsWrite.loan = answered reads := by
  have hloans := fun c => @loan_of_mem _ _ _ _ _ _ _ _ _ _ _ h c
  clear h
  induction reads with
  | nil => rfl
  | cons c reads ih =>
    have hrest := ih fun c hc => hloans c (List.mem_cons_of_mem _ hc)
    rcases c with ⟨loan, r⟩
    cases hr : r.outcome with
    | ok w =>
      rw [answers_cons_of_ok hr, answered_cons_of_ok hr, List.map_cons, hrest,
        hloans ⟨loan, r⟩ List.mem_cons_self hr]
    | error e => rw [answers_cons_of_error hr, answered_cons_of_error hr, hrest]

/-- Every loan has its write or is skipped, unless a read failed for good. -/
theorem exists_perm_loans
    (h : CallsMade policy (computeWrite · today mode) s stream loans reads s' stream') :
    ∃ rest, (failed? reads = none → rest = []) ∧
      ((answers reads).map ArrearsWrite.loan ++ (refused id reads).map SkippedLoan.loan ++
        rest).Perm loans := by
  obtain ⟨rest, hrest, hperm⟩ := h.exists_perm id
  rw [List.map_id, List.map_id, ← h.map_loan_answers] at hperm
  exact ⟨rest, hrest, hperm⟩

end Reads

/-- Single writes land when they are answered. -/
theorem table_of_writes [BookAccess σ] [ArrearsAccess σ] {table : σ → ArrearsTable}
    (hσ : KeepsTable table) {ws : List ArrearsWrite} {singles : List (Call ArrearsWrite Unit)}
    (h : CallsMade policy ArrearsAccess.write s stream ws singles s' stream') :
    (∀ w ∈ answered singles, ∃ e, w.entryLeft = .ok e) ∧
      table s' = (table s).applyAll (answered singles) := by
  induction h with
  | done => exact ⟨List.forall_mem_nil _, rfl⟩
  | @failed s s' stream w ws r e hcall hfailure =>
    have hdone := (hσ.write w).table_of_retry hcall
    obtain ⟨hr, -⟩ := RetryResult.of_failure? hfailure
    rw [hr] at hdone
    rw [answered_cons_of_error hr]
    exact ⟨List.forall_mem_nil _, hdone⟩
  | @next s s₁ s' stream stream' w ws r singles hcall hgoes hrest ih =>
    have hdone := (hσ.write w).table_of_retry hcall
    obtain ⟨hentries, htable⟩ := ih
    cases hr : r.outcome with
    | ok v =>
      rw [hr] at hdone
      rw [answered_cons_of_ok hr]
      refine ⟨List.forall_mem_cons.2 ⟨hdone.1 w (List.mem_singleton_self w), hentries⟩, ?_⟩
      rw [htable, hdone.2]
      rfl
    | error e =>
      rw [hr] at hdone
      have hsame : table s₁ = table s := hdone
      rw [answered_cons_of_error hr, htable, hsame]
      exact ⟨hentries, rfl⟩

end CallsMade

/-! ## Counts -/

theorem upsertCount_append (ws ws' : List ArrearsWrite) :
    upsertCount (ws ++ ws') = upsertCount ws + upsertCount ws' :=
  List.countP_append

theorem upsertCount_add_deleteCount (ws : List ArrearsWrite) :
    upsertCount ws + deleteCount ws = ws.length :=
  Nat.add_sub_of_le List.countP_le_length

theorem deleteCount_append (ws ws' : List ArrearsWrite) :
    deleteCount (ws ++ ws') = deleteCount ws + deleteCount ws' := by
  have h := upsertCount_add_deleteCount ws
  have h' := upsertCount_add_deleteCount ws'
  have hboth := upsertCount_add_deleteCount (ws ++ ws')
  rw [upsertCount_append, List.length_append] at hboth
  omega

/-! ## Kinds of calls -/

/-- What the calls of a kind do to a posting: each of them is for a loan and takes an answer over,
    which counts the writes that landed by it, if any. -/
structure CallKind (α β : Type) where
  loanOf : α → LoanId
  failure : α → Error → PostFailure
  take : α → Posting → β → Posting
  landedBy : α → List ArrearsWrite
  outcome_take (a : α) (p : Posting) (v : β) :
    (take a p v).outcome = (p.landed (landedBy a)).outcome
  stream_take (a : α) (p : Posting) (v : β) : (take a p v).stream = p.stream

namespace CallKind

/-- Reads of loans. -/
def reading : CallKind LoanId ArrearsWrite where
  loanOf := id
  failure := .reading
  take _ := Posting.computed
  landedBy _ := []
  outcome_take _ _ _ := rfl
  stream_take _ _ _ := rfl

/-- Single writes. -/
def writing : CallKind ArrearsWrite Unit where
  loanOf := ArrearsWrite.loan
  failure w := .writing w.loan
  take w p _ := p.landed [w]
  landedBy w := [w]
  outcome_take _ _ _ := rfl
  stream_take _ _ _ := rfl

variable (k : CallKind α β)

/-- The posting after a call. -/
def after (p : Posting) (a : α) : RetryResult β → Posting :=
  p.called (k.loanOf a) (k.failure a) (k.take a)

/-- What calls make of an outcome. -/
def outcomeAfter (o : PostOutcome) (calls : List (Call α β)) : PostOutcome :=
  { o with
    upserted := o.upserted + upsertCount ((answered calls).flatMap k.landedBy)
    deleted := o.deleted + deleteCount ((answered calls).flatMap k.landedBy)
    skipped := o.skipped ++ refused k.loanOf calls
    retries := o.retries + retriesOf calls
    failure := (failed? calls).map fun x => k.failure x.1 x.2 }

variable {k} {r : RetryResult β}

theorem after_of_ok {v : β} (h : r.outcome = .ok v) (p : Posting) (a : α) :
    k.after p a r = k.take a (p.note r) v := by
  rw [after, Posting.called, h]

theorem after_of_data {e : Error} (h : r.outcome = .error e) (hdata : e.class = .data)
    (p : Posting) (a : α) : k.after p a r = (p.note r).skip (k.loanOf a) e := by
  rw [after, Posting.called, h]
  exact if_pos hdata

theorem after_of_not_data {e : Error} (h : r.outcome = .error e) (hdata : e.class ≠ .data)
    (p : Posting) (a : α) : k.after p a r = (p.note r).fail (k.failure a e) := by
  rw [after, Posting.called, h]
  exact if_neg hdata

/-- A call fails the posting when its attempts failed for good. -/
theorem isFailed_after {p : Posting} (hp : p.outcome.isFailed = false) (a : α)
    (r : RetryResult β) : (k.after p a r).outcome.isFailed = r.failure?.isSome := by
  rcases r.cases_outcome with ⟨v, hr, hf, -⟩ | ⟨e, hr, hdata, hf, -⟩ | ⟨e, hr, hdata, hf, -⟩
  · rw [after_of_ok hr, hf, k.outcome_take]
    exact hp
  · rw [after_of_data hr hdata, hf]
    exact hp
  · rw [after_of_not_data hr hdata, hf]
    rfl

theorem stream_after (p : Posting) (a : α) (r : RetryResult β) :
    (k.after p a r).stream = r.stream := by
  rcases r.cases_outcome with ⟨v, hr, -⟩ | ⟨e, hr, hdata, -⟩ | ⟨e, hr, hdata, -⟩
  · rw [after_of_ok hr, k.stream_take]
    rfl
  · rw [after_of_data hr hdata]
    rfl
  · rw [after_of_not_data hr hdata]
    rfl

variable {policy : RetryPolicy} {act : α → Act σ β}

theorem outcomeAfter_nil {o : PostOutcome} (ho : o.isFailed = false) :
    k.outcomeAfter o [] = o := by
  have hnone : o.failure = none := by simpa [PostOutcome.isFailed] using ho
  cases o
  cases hnone
  simp [outcomeAfter, upsertCount, deleteCount]

/-- What a call that failed for good makes of the outcome. -/
theorem outcome_after_of_failure {e : Error} (h : r.failure? = some e) (p : Posting) (a : α) :
    (k.after p a r).outcome = k.outcomeAfter p.outcome [⟨a, r⟩] := by
  obtain ⟨hr, hdata, href⟩ := RetryResult.of_failure? h
  rw [after_of_not_data hr hdata, outcomeAfter, answered_cons_of_error hr,
    refused_cons_of_none href, retriesOf_cons, failed?_cons_of_some h]
  simp [Posting.fail, Posting.note, upsertCount, deleteCount]

/-- A call and then others are all of them. -/
theorem outcomeAfter_after (h : r.failure? = none) (p : Posting) (a : α)
    (calls : List (Call α β)) :
    k.outcomeAfter (k.after p a r).outcome calls =
      k.outcomeAfter p.outcome (⟨a, r⟩ :: calls) := by
  simp only [outcomeAfter, retriesOf_cons, failed?_cons_of_none h]
  rcases RetryResult.of_failure?_eq_none h with ⟨v, hr, href⟩ | ⟨e, hr, hdata, href⟩
  · rw [after_of_ok hr, k.outcome_take, answered_cons_of_ok hr, refused_cons_of_none href]
    simp [upsertCount_append, deleteCount_append, Posting.landed, Posting.note, Nat.add_assoc]
  · rw [after_of_data hr hdata, answered_cons_of_error hr, refused_cons_of_some href]
    simp [Posting.skip, Posting.note, Nat.add_assoc]

/-- What a posting without a failure comes to by calls. -/
theorem outcome_foldl_after {s s' : σ} {stream stream' : JitterStream} {items : List α}
    {calls : List (Call α β)} (h : CallsMade policy act s stream items calls s' stream')
    (p : Posting) (hp : p.outcome.isFailed = false) :
    (calls.foldl (fun p c => k.after p c.item c.result) p).outcome =
      k.outcomeAfter p.outcome calls := by
  induction h generalizing p with
  | done => exact (outcomeAfter_nil hp).symm
  | failed hcall hfailure => exact outcome_after_of_failure hfailure p _
  | @next s s₁ s' stream stream' a items r calls hcall hgoes hrest ih =>
    have hafter : (k.after p a r).outcome.isFailed = false := by
      rw [isFailed_after hp, hgoes]
      rfl
    rw [List.foldl_cons, ih _ hafter]
    exact outcomeAfter_after hgoes p a calls

/-- Steps that are calls of a kind, until one fails for good. -/
theorem untilFailure_cases {step : Posting → α → Act σ Posting}
    (hstep : ∀ p a, step p a = k.after p a <$> retry policy p.stream (act a)) (items : List α)
    (p : Posting) (hp : p.outcome.isFailed = false) (s : σ) :
    match (Posting.untilFailure step p items).exec s with
    | (.ok p', s') => ∃ calls, CallsMade policy act s p.stream items calls s' p'.stream ∧
      p' = calls.foldl (fun p c => k.after p c.item c.result) p
    | (.error f, _) => ∃ c, f = .crash c := by
  induction items generalizing p s with
  | nil => exact ⟨[], .done, rfl⟩
  | cons a items ih =>
    rw [Posting.untilFailure, hstep]
    rcases hcall : (retry policy p.stream (act a)).exec s with ⟨f | r, s₁⟩
    · have hmap : (k.after p a <$> retry policy p.stream (act a)).exec s = (.error f, s₁) := by
        rw [Act.exec_map, hcall]
        rfl
      rw [Act.exec_bind_error hmap]
      exact exists_crash_of_retry hcall
    · have hmap : (k.after p a <$> retry policy p.stream (act a)).exec s =
          (.ok (k.after p a r), s₁) := by
        rw [Act.exec_map, hcall]
        rfl
      rw [Act.exec_bind_ok hmap]
      have hends : (k.after p a r).outcome.isFailed = r.failure?.isSome := isFailed_after hp a r
      cases hfailure : r.failure? with
      | some e =>
        rw [hfailure, Option.isSome_some] at hends
        rw [if_pos hends]
        refine ⟨[⟨a, r⟩], ?_, rfl⟩
        rw [stream_after]
        exact .failed hcall hfailure
      | none =>
        rw [hfailure, Option.isSome_none] at hends
        rw [hends, if_neg Bool.false_ne_true]
        have hrest := ih (k.after p a r) hends s₁
        rcases hexec : (Posting.untilFailure step (k.after p a r) items).exec s₁ with ⟨f | p', s'⟩
        · rw [hexec] at hrest
          exact hrest
        · rw [hexec] at hrest
          obtain ⟨calls, hcalls, hp'⟩ := hrest
          rw [stream_after] at hcalls
          exact ⟨⟨a, r⟩ :: calls, .next hcall hfailure hcalls, hp'⟩

theorem outcomeAfter_reading (o : PostOutcome) (reads : List (Call LoanId ArrearsWrite)) :
    reading.outcomeAfter o reads =
      { o with
        skipped := o.skipped ++ refused id reads
        retries := o.retries + retriesOf reads
        failure := (failed? reads).map fun x => .reading x.1 x.2 } := by
  simp [outcomeAfter, reading, upsertCount, deleteCount]

theorem outcomeAfter_writing (o : PostOutcome) (singles : List (Call ArrearsWrite Unit)) :
    writing.outcomeAfter o singles =
      { o with
        upserted := o.upserted + upsertCount (answered singles)
        deleted := o.deleted + deleteCount (answered singles)
        skipped := o.skipped ++ refused (·.loan) singles
        retries := o.retries + retriesOf singles
        failure := (failed? singles).map fun x => .writing x.1.loan x.2 } := by
  simp [outcomeAfter, writing]

theorem writes_foldl_reading (calls : List (Call LoanId ArrearsWrite)) (p : Posting) :
    (calls.foldl (fun p c => reading.after p c.item c.result) p).writes =
      p.writes ++ answers calls := by
  induction calls generalizing p with
  | nil => exact (List.append_nil _).symm
  | cons c calls ih =>
    rw [List.foldl_cons, ih]
    rcases c with ⟨loan, r⟩
    rcases r.cases_outcome with ⟨w, hr, -⟩ | ⟨e, hr, hdata, -⟩ | ⟨e, hr, hdata, -⟩
    · rw [after_of_ok hr, answers_cons_of_ok hr]
      exact List.append_assoc p.writes [w] (answers calls)
    · rw [after_of_data hr hdata, answers_cons_of_error hr]
      rfl
    · rw [after_of_not_data hr hdata, answers_cons_of_error hr]
      rfl

end CallKind

end LoanArrears
