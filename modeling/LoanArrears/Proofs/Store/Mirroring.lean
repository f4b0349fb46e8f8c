-- SUMMARY: Two stores that answer alike: acts that give the same answers on both, and computing the writes of loans whose reads do.
import LoanArrears.Proofs.Act
import LoanArrears.Recompute
import LoanArrears.Retry

/-!
# Stores that answer alike

Acts on two stores mirror each other under a relation of the stores if, from related ones, they
give the same answer and come to related ones again. Every way to compose acts keeps to this, so
it is asked of the accesses only: `MirrorsReads` asks it of the reads for some loans, and then
their writes are computed alike. With a store beside itself the relation is an invariant
(`Act.mirrors_self_iff`).
-/

namespace LoanArrears

/-! ## Acts -/

namespace Act

/-- From related stores the acts give the same answer, and they leave related stores. -/
def Mirrors (R : σ → τ → Prop) (a : Act σ α) (a' : Act τ α) : Prop :=
  ∀ s t, R s t → (a.exec s).1 = (a'.exec t).1 ∧ R (a.exec s).2 (a'.exec t).2

/-- An act that keeps an invariant mirrors itself. -/
theorem mirrors_self_iff {I : σ → Prop} {a : Act σ α} :
    a.Mirrors (fun s t => s = t ∧ I s) a ↔ ∀ s, I s → I (a.exec s).2 := by
  constructor
  · intro h s hs
    exact (h s s ⟨rfl, hs⟩).2.2
  · rintro h s _ ⟨rfl, hs⟩
    exact ⟨rfl, rfl, h s hs⟩

/-- However it ends, the act keeps what can be seen of the store. -/
def Keeps (view : σ → γ) (a : Act σ α) : Prop :=
  ∀ s, view (a.exec s).2 = view s

theorem keeps_iff_mirrors {view : σ → γ} {a : Act σ α} :
    a.Keeps view ↔ ∀ v, a.Mirrors (fun s t => s = t ∧ view s = v) a := by
  constructor
  · intro h v
    exact mirrors_self_iff.2 fun s hs => (h s).trans hs
  · intro h s
    exact mirrors_self_iff.1 (h (view s)) s rfl

namespace Keeps

variable {view : σ → γ}

theorem view_eq {a : Act σ α} (h : a.Keeps view) {s s' : σ} {r : Except Fault α}
    (hexec : a.exec s = (r, s')) : view s' = view s := by
  rw [← h s, hexec]

theorem pure (v : α) : (Pure.pure v : Act σ α).Keeps view :=
  fun _ => rfl

theorem bind {a : Act σ α} {f : α → Act σ β} (ha : a.Keeps view) (hf : ∀ v, (f v).Keeps view) :
    (a >>= f).Keeps view := by
  intro s
  have hkept := ha s
  rcases hexec : a.exec s with ⟨_ | v, t⟩
  · rw [hexec] at hkept
    rw [exec_bind_error hexec, hkept]
  · rw [hexec] at hkept
    rw [exec_bind_ok hexec, hf, hkept]

end Keeps

namespace Mirrors

variable {R : σ → τ → Prop}

theorem pure (v : α) : (Pure.pure v : Act σ α).Mirrors R (Pure.pure v) :=
  fun _ _ h => ⟨rfl, h⟩

/-- What is known of the one act is known of the other. -/
theorem exists_exec {a : Act σ α} {a' : Act τ α} (h : a.Mirrors R a') {s : σ} {t t' : τ}
    (hst : R s t) {r : Except Fault α} (h' : a'.exec t = (r, t')) :
    ∃ s', a.exec s = (r, s') ∧ R s' t' := by
  obtain ⟨hanswer, hrelated⟩ := h s t hst
  rw [h'] at hanswer hrelated
  exact ⟨(a.exec s).2, Prod.ext hanswer rfl, hrelated⟩

theorem of_reads {a : Act σ α} {a' : Act τ α} {r : Except Fault α} (h : ∀ s, a.Reads s r)
    (h' : ∀ t, a'.Reads t r) : a.Mirrors R a' := by
  intro s t hst
  rw [h, h']
  exact ⟨rfl, hst⟩

theorem lift_error (x : Except Error α) : (liftM x : Act σ α).Mirrors R (liftM x) :=
  of_reads (fun _ => Reads.lift_error x) fun _ => Reads.lift_error x

theorem lift_crash (x : Except Crash α) : (liftM x : Act σ α).Mirrors R (liftM x) :=
  of_reads (fun _ => Reads.lift_crash x) fun _ => Reads.lift_crash x

/-- The second acts have to mirror each other for what the first one can answer. -/
theorem bind {a : Act σ α} {a' : Act τ α} {f : α → Act σ β} {f' : α → Act τ β}
    (ha : a.Mirrors R a')
    (hf : ∀ v, (∃ s s', a.exec s = (.ok v, s')) → (f v).Mirrors R (f' v)) :
    (a >>= f).Mirrors R (a' >>= f') := by
  intro s t hst
  obtain ⟨hanswer, hrelated⟩ := ha s t hst
  rcases hexec : a.exec s with ⟨e | v, s'⟩
  · rcases hexec' : a'.exec t with ⟨e' | v', t'⟩
    · rw [hexec, hexec'] at hanswer hrelated
      cases hanswer
      rw [exec_bind_error hexec, exec_bind_error hexec']
      exact ⟨rfl, hrelated⟩
    · rw [hexec, hexec'] at hanswer
      cases hanswer
  · rcases hexec' : a'.exec t with ⟨e' | v', t'⟩
    · rw [hexec, hexec'] at hanswer
      cases hanswer
    · rw [hexec, hexec'] at hanswer hrelated
      cases hanswer
      rw [exec_bind_ok hexec, exec_bind_ok hexec']
      exact hf v ⟨s, s', hexec⟩ s' t' hrelated

theorem map {a : Act σ α} {a' : Act τ α} (ha : a.Mirrors R a') (f : α → β) :
    (f <$> a).Mirrors R (f <$> a') := by
  intro s t hst
  obtain ⟨hanswer, hrelated⟩ := ha s t hst
  rw [exec_map, exec_map, hanswer]
  exact ⟨rfl, hrelated⟩

theorem outcome {a : Act σ α} {a' : Act τ α} (ha : a.Mirrors R a') :
    a.outcome.Mirrors R a'.outcome := by
  intro s t hst
  obtain ⟨hanswer, hrelated⟩ := ha s t hst
  rw [exec_outcome, exec_outcome, hanswer]
  exact ⟨rfl, hrelated⟩

theorem attempt {a : Act σ α} {a' : Act τ α} (ha : a.Mirrors R a') :
    a.attempt.Mirrors R a'.attempt := by
  intro s t hst
  obtain ⟨hanswer, hrelated⟩ := ha s t hst
  rcases hexec : a.exec s with ⟨(e | c) | v, s'⟩
  all_goals
    rcases hexec' : a'.exec t with ⟨r, t'⟩
    rw [hexec, hexec'] at hanswer hrelated
    cases hanswer
  · rw [exec_attempt_error hexec, exec_attempt_error hexec']
    exact ⟨rfl, hrelated⟩
  · rw [exec_attempt_crash hexec, exec_attempt_crash hexec']
    exact ⟨rfl, hrelated⟩
  · rw [exec_attempt_ok hexec, exec_attempt_ok hexec']
    exact ⟨rfl, hrelated⟩

theorem retryFrom {a : Act σ α} {a' : Act τ α} (ha : a.Mirrors R a') (policy : RetryPolicy)
    (delays : List Nat) (stream : JitterStream) (left : Nat) :
    (LoanArrears.retryFrom policy a delays stream left).Mirrors R
      (LoanArrears.retryFrom policy a' delays stream left) := by
  induction left generalizing delays stream with
  | zero =>
    refine .bind ha.attempt fun r _ => ?_
    cases r with
    | ok v => exact .pure _
    | error e => exact .pure _
  | succ left ih =>
    refine .bind ha.attempt fun r _ => ?_
    cases r with
    | ok v => exact .pure _
    | error e =>
      dsimp only
      split
      · exact ih _ _
      · exact .pure _

theorem retry {a : Act σ α} {a' : Act τ α} (ha : a.Mirrors R a') (policy : RetryPolicy)
    (stream : JitterStream) :
    (LoanArrears.retry policy stream a).Mirrors R (LoanArrears.retry policy stream a') :=
  ha.retryFrom policy [] stream policy.maxRetries

end Mirrors

end Act

/-! ## Computing a write -/

/-- The reads for the served loans mirror each other. -/
structure MirrorsReads [BookAccess σ] [BookAccess τ] (R : σ → τ → Prop) (served : LoanId → Prop) :
    Prop where
  terms (loan : LoanId) (h : served loan) :
    (BookAccess.terms loan : Act σ AgingTerms).Mirrors R (BookAccess.terms loan)
  /-- The terms of a served loan are those of a served loan. -/
  served_terms (loan : LoanId) (h : served loan) (s s' : σ) (terms : AgingTerms) :
    (BookAccess.terms loan : Act σ AgingTerms).exec s = (.ok terms, s') → served terms.loan
  plannedInstallments (loan : LoanId) (h : served loan) :
    (BookAccess.plannedInstallments loan : Act σ (List PlannedInstallment)).Mirrors R
      (BookAccess.plannedInstallments loan)
  liveInstallments (loan : LoanId) (h : served loan) :
    (BookAccess.liveInstallments loan : Act σ (List LiveInstallment)).Mirrors R
      (BookAccess.liveInstallments loan)
  consumption (loan : LoanId) (h : served loan) :
    (BookAccess.consumption loan : Act σ Consumption).Mirrors R (BookAccess.consumption loan)

namespace MirrorsReads

variable [BookAccess σ] [BookAccess τ] {R : σ → τ → Prop} {served : LoanId → Prop}
  {terms : AgingTerms}

theorem plannedArrears (h : MirrorsReads R served) (hloan : served terms.loan) (today : Date) :
    (LoanArrears.plannedArrears terms today : Act σ (Option Totals)).Mirrors R
      (LoanArrears.plannedArrears terms today) := by
  unfold LoanArrears.plannedArrears
  split
  · exact .pure none
  refine .bind (h.plannedInstallments _ hloan) fun schedule _ => ?_
  split
  · exact .pure none
  refine .bind (.lift_error _) fun _ _ => ?_
  refine .bind (h.consumption _ hloan) fun lifetime _ => ?_
  refine .bind (.lift_error _) fun _ _ => ?_
  refine .bind (.lift_crash _) fun allocated _ => ?_
  refine .bind (.lift_crash _) fun cutoff _ => ?_
  refine .bind (.lift_crash _) fun totals _ => ?_
  exact .pure (some totals)

theorem liveArrears (h : MirrorsReads R served) (hloan : served terms.loan) (today : Date) :
    (LoanArrears.liveArrears terms today : Act σ Totals).Mirrors R
      (LoanArrears.liveArrears terms today) := by
  unfold LoanArrears.liveArrears
  refine .bind (h.liveInstallments _ hloan) fun rows _ => ?_
  refine .bind (.lift_crash _) fun cutoff _ => ?_
  exact .lift_crash _

/-- Aging the live schedule where no planned one was replayed. -/
theorem ofReplayed (h : MirrorsReads R served) (hloan : served terms.loan) (loan : LoanId)
    (today : Date) (replayed : Option Totals) :
    (match replayed with
      | some totals => do return .ofTotals loan (← pure totals)
      | none => do return .ofTotals loan (← LoanArrears.liveArrears terms today) :
      Act σ ArrearsWrite).Mirrors R
    (match replayed with
      | some totals => do return .ofTotals loan (← pure totals)
      | none => do return .ofTotals loan (← LoanArrears.liveArrears terms today)) := by
  cases replayed with
  | some totals => exact .pure _
  | none => exact .bind (h.liveArrears hloan today) fun totals _ => .pure _

theorem computeWrite (h : MirrorsReads R served) {loan : LoanId} (hloan : served loan)
    (today : Date) (mode : AgingMode) :
    (LoanArrears.computeWrite loan today mode : Act σ ArrearsWrite).Mirrors R
      (LoanArrears.computeWrite loan today mode) := by
  unfold LoanArrears.computeWrite
  refine .bind (h.terms loan hloan) fun terms ⟨s, s', hterms⟩ => ?_
  have hserved : served terms.loan := h.served_terms loan hloan s s' terms hterms
  split
  · exact .pure _
  dsimp only
  split
  · exact .bind (h.plannedArrears hserved today) fun replayed _ =>
      h.ofReplayed hserved loan today replayed
  · exact .bind (.pure none) fun replayed _ => h.ofReplayed hserved loan today replayed

end MirrorsReads

/-! ## Reads that keep something -/

/-- The reads of single loans keep what can be seen of the store. -/
structure ReadsKeep [BookAccess σ] (view : σ → γ) : Prop where
  terms (loan : LoanId) : (BookAccess.terms loan : Act σ AgingTerms).Keeps view
  plannedInstallments (loan : LoanId) :
    (BookAccess.plannedInstallments loan : Act σ (List PlannedInstallment)).Keeps view
  liveInstallments (loan : LoanId) :
    (BookAccess.liveInstallments loan : Act σ (List LiveInstallment)).Keeps view
  consumption (loan : LoanId) : (BookAccess.consumption loan : Act σ Consumption).Keeps view

namespace ReadsKeep

variable [BookAccess σ] {view : σ → γ}

theorem mirrorsReads (h : ReadsKeep view) (v : γ) :
    MirrorsReads (fun s t : σ => s = t ∧ view s = v) fun _ => True where
  terms loan _ := Act.keeps_iff_mirrors.1 (h.terms loan) v
  served_terms _ _ _ _ _ _ := trivial
  plannedInstallments loan _ := Act.keeps_iff_mirrors.1 (h.plannedInstallments loan) v
  liveInstallments loan _ := Act.keeps_iff_mirrors.1 (h.liveInstallments loan) v
  consumption loan _ := Act.keeps_iff_mirrors.1 (h.consumption loan) v

theorem computeWrite (h : ReadsKeep view) (loan : LoanId) (today : Date) (mode : AgingMode) :
    (LoanArrears.computeWrite loan today mode : Act σ ArrearsWrite).Keeps view :=
  Act.keeps_iff_mirrors.2 fun v => (h.mirrorsReads v).computeWrite trivial today mode

end ReadsKeep

end LoanArrears
