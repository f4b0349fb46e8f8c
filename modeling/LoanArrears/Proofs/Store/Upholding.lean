-- SUMMARY: Invariants of a store: what every access upholds is upheld by recomputing a loan, and by a store with a plan of faults.
import LoanArrears.Proofs.Store.Keeping

/-!
# Invariants of a store

An act upholds an invariant if the store that it leaves has it, however the act ends. Every way to
compose acts keeps to this, so it is asked of the accesses only (`UpholdsAccess`). A plan of faults
may end an access early, and upholds what the store upholds that it is put on.
-/

namespace LoanArrears

/-! ## Acts -/

namespace Act

/-- However it ends, the act leaves a store with the invariant, if it found one. -/
def Upholds (I : σ → Prop) (a : Act σ α) : Prop :=
  ∀ s, I s → I (a.exec s).2

theorem Keeps.upholds {view : σ → γ} {a : Act σ α} (h : a.Keeps view) (P : γ → Prop) :
    a.Upholds fun s => P (view s) := by
  intro s hs
  show P (view (a.exec s).2)
  rw [h s]
  exact hs

namespace Upholds

variable {I : σ → Prop}

/-- An act beside itself mirrors what it upholds. -/
theorem iff_mirrors {a : Act σ α} :
    a.Upholds I ↔ a.Mirrors (fun s t => s = t ∧ I s) a :=
  mirrors_self_iff.symm

theorem pure (v : α) : (Pure.pure v : Act σ α).Upholds I :=
  fun _ h => h

theorem fail (e : Error) : (Act.fail e : Act σ α).Upholds I :=
  fun _ h => h

theorem crash (c : Crash) : (Act.crash c : Act σ α).Upholds I :=
  fun _ h => h

theorem get : (MonadState.get : Act σ σ).Upholds I :=
  fun _ h => h

theorem bind {a : Act σ α} {f : α → Act σ β} (ha : a.Upholds I) (hf : ∀ v, (f v).Upholds I) :
    (a >>= f).Upholds I :=
  iff_mirrors.2 ((iff_mirrors.1 ha).bind fun v _ => iff_mirrors.1 (hf v))

theorem map {a : Act σ α} (ha : a.Upholds I) (f : α → β) : (f <$> a).Upholds I :=
  iff_mirrors.2 ((iff_mirrors.1 ha).map f)

theorem attempt {a : Act σ α} (ha : a.Upholds I) : a.attempt.Upholds I :=
  iff_mirrors.2 (iff_mirrors.1 ha).attempt

theorem outcome {a : Act σ α} (ha : a.Upholds I) : a.outcome.Upholds I :=
  iff_mirrors.2 (iff_mirrors.1 ha).outcome

theorem forM {f : γ → Act σ Unit} {l : List γ} (hf : ∀ v ∈ l, (f v).Upholds I) :
    (l.forM f).Upholds I := by
  induction l with
  | nil => exact .pure ()
  | cons v l ih =>
    obtain ⟨hv, hl⟩ := List.forall_mem_cons.1 hf
    exact .bind hv fun _ => ih hl

/-- Run on a part of a larger store, the act upholds the invariant of this part. -/
theorem zoom {get : τ → σ} {set : σ → τ → τ} {a : Act σ α} (ha : a.Upholds I)
    (hset : ∀ s t, get (set s t) = s) : (a.zoom get set).Upholds fun t => I (get t) := by
  intro t ht
  rw [exec_zoom]
  show I (get (set _ t))
  rw [hset]
  exact ha (get t) ht

end Upholds

end Act

/-! ## Stores -/

/-- Every access to the store upholds the invariant. -/
structure UpholdsAccess [BookAccess σ] [ArrearsAccess σ] [Connections σ] (I : σ → Prop) : Prop where
  connect : (Connections.connect : Act σ Unit).Upholds I
  candidates (after : LoanId) (pageSize : Nat) (today : Date) :
    (BookAccess.candidates after pageSize today : Act σ (List LoanId)).Upholds I
  terms (loan : LoanId) : (BookAccess.terms loan : Act σ AgingTerms).Upholds I
  plannedInstallments (loan : LoanId) :
    (BookAccess.plannedInstallments loan : Act σ (List PlannedInstallment)).Upholds I
  liveInstallments (loan : LoanId) :
    (BookAccess.liveInstallments loan : Act σ (List LiveInstallment)).Upholds I
  consumption (loan : LoanId) : (BookAccess.consumption loan : Act σ Consumption).Upholds I
  reset : (ArrearsAccess.reset : Act σ Nat).Upholds I
  bulkInsert (today : Date) : (ArrearsAccess.bulkInsert today : Act σ Nat).Upholds I
  write (w : ArrearsWrite) : (ArrearsAccess.write w : Act σ Unit).Upholds I
  writeBatch (ws : List ArrearsWrite) : (ArrearsAccess.writeBatch ws : Act σ Unit).Upholds I

namespace UpholdsAccess

variable [BookAccess σ] [ArrearsAccess σ] [Connections σ] {I : σ → Prop}

/-- Beside itself the store answers alike for all loans. -/
theorem mirrorsReads (h : UpholdsAccess I) :
    MirrorsReads (fun s t : σ => s = t ∧ I s) fun _ => True where
  terms loan _ := Act.Upholds.iff_mirrors.1 (h.terms loan)
  served_terms _ _ _ _ _ _ := trivial
  plannedInstallments loan _ := Act.Upholds.iff_mirrors.1 (h.plannedInstallments loan)
  liveInstallments loan _ := Act.Upholds.iff_mirrors.1 (h.liveInstallments loan)
  consumption loan _ := Act.Upholds.iff_mirrors.1 (h.consumption loan)

theorem computeWrite (h : UpholdsAccess I) (loan : LoanId) (today : Date) (mode : AgingMode) :
    (LoanArrears.computeWrite loan today mode : Act σ ArrearsWrite).Upholds I :=
  Act.Upholds.iff_mirrors.2 (h.mirrorsReads.computeWrite trivial today mode)

theorem recompute (h : UpholdsAccess I) (loan : LoanId) (today : Date) (mode : AgingMode) :
    (LoanArrears.recompute loan today mode : Act σ ArrearsWrite).Upholds I :=
  .bind (h.computeWrite loan today mode) fun w => .bind (h.write w) fun _ => .pure w

end UpholdsAccess

/-! ## Plans of faults -/

namespace Faulty

variable {I : σ → Prop}

theorem upholds_meet (site : Site) (loan : Option LoanId) :
    (meet site loan : Act (Faulty σ) Unit).Upholds (I ·.inner) := by
  have hkeeps : (meet site loan : Act (Faulty σ) Unit).Keeps Faulty.inner :=
    @keeps_meet σ σ id site loan
  exact hkeeps.upholds I

theorem upholds_modify {f : Faulty σ → Faulty σ} (h : ∀ s, (f s).inner = s.inner) :
    (modify f : Act (Faulty σ) Unit).Upholds (I ·.inner) := by
  have hkeeps : (modify f : Act (Faulty σ) Unit).Keeps Faulty.inner := @keeps_modify σ σ id f h
  exact hkeeps.upholds I

theorem upholds_onInner {a : Act σ α} (h : a.Upholds I) :
    (onInner a : Act (Faulty σ) α).Upholds (I ·.inner) :=
  h.zoom fun _ _ => rfl

/-- An access under a plan may meet a fault before it is done. -/
theorem upholds_call {a : Act σ α} (h : a.Upholds I) (site : Site) (loan : Option LoanId) :
    (do meet site loan; onInner a : Act (Faulty σ) α).Upholds (I ·.inner) :=
  .bind (upholds_meet site loan) fun _ => upholds_onInner h

theorem upholdsAccess [BookAccess σ] [ArrearsAccess σ] [Connections σ] (h : UpholdsAccess I) :
    UpholdsAccess fun s : Faulty σ => I s.inner where
  connect := upholds_call h.connect _ _
  candidates after pageSize today := upholds_call (h.candidates after pageSize today) _ _
  terms loan := .bind (upholds_modify fun _ => rfl) fun _ => upholds_call (h.terms loan) _ _
  plannedInstallments loan := by
    refine .bind (upholds_meet _ _) fun _ => .bind .get fun s => ?_
    split
    · exact .pure _
    · exact upholds_onInner (h.plannedInstallments loan)
  liveInstallments loan := upholds_call (h.liveInstallments loan) _ _
  consumption loan := upholds_call (h.consumption loan) _ _
  reset := upholds_call h.reset _ _
  bulkInsert today := upholds_call (h.bulkInsert today) _ _
  write w := upholds_call (h.write w) _ _
  writeBatch ws :=
    .bind (upholds_modify fun _ => rfl) fun _ =>
      .bind (.forM fun _ _ => upholds_meet _ _) fun _ => upholds_onInner (h.writeBatch ws)

end Faulty

end LoanArrears
