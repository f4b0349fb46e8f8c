-- SUMMARY: Acts whose order does not matter: fetches of candidates and the accesses of postings, on plain stores and under a plan of faults.
import LoanArrears.Proofs.Store.Serving

/-!
# Acts that commute

Two acts commute if each of them gives the same answer before and behind the other one, and both
orders leave the same store. This is mirroring (`Act.Mirrors`) under the relation of a store to
what the first act leaves of it, so it extends to all that is composed of such acts.

Fetching candidates commutes with everything that a posting does to a store (`FetchesApart`): it
reads the book, and a posting writes the arrears. A plan of faults keeps it so, because its rules
are either for fetches or for the calls of single loans.
-/

namespace LoanArrears

namespace Act

/-- It does not matter which of the acts comes first. -/
def Commutes (a : Act σ α) (b : Act σ β) : Prop :=
  ∀ r, b.Mirrors (fun s t => a.exec s = (r, t)) b

namespace Commutes

variable {a : Act σ α} {b : Act σ β}

theorem symm (h : a.Commutes b) : b.Commutes a := by
  intro r s t hb
  rcases ha : a.exec s with ⟨r', u⟩
  obtain ⟨hanswer, hend⟩ := h r' s u ha
  rw [hb] at hanswer hend
  dsimp only at hanswer hend ⊢
  rw [hend]
  exact ⟨rfl, Prod.ext hanswer.symm rfl⟩

theorem pure (v : β) : a.Commutes (Pure.pure v : Act σ β) :=
  fun _ => .pure v

theorem bind {f : β → Act σ γ} (hb : a.Commutes b) (hf : ∀ v, a.Commutes (f v)) :
    a.Commutes (b >>= f) :=
  fun r => (hb r).bind fun v _ => hf v r

theorem forM {f : γ → Act σ Unit} (hf : ∀ v, a.Commutes (f v)) (l : List γ) :
    a.Commutes (l.forM f) := by
  induction l with
  | nil => exact .pure ()
  | cons v l ih => exact .bind (hf v) fun _ => ih

/-- An act that only reads commutes with one that keeps its answer. -/
theorem of_keeps (ha : a.Keeps id) (hb : ∀ s, (a.exec (b.exec s).2).1 = (a.exec s).1) :
    a.Commutes b := by
  rintro r s t h
  obtain rfl : t = s := ha.view_eq h
  refine ⟨rfl, Prod.ext ?_ (ha _)⟩
  rw [hb, h]

end Commutes

end Act

/-- The act commutes with all fetches of candidates. -/
def Act.ApartFromFetches [BookAccess σ] (b : Act σ β) : Prop :=
  ∀ after pageSize today,
    (BookAccess.candidates after pageSize today : Act σ (List LoanId)).Commutes b

/-- The accesses of postings commute with fetches. -/
structure FetchesApart (σ : Type) [BookAccess σ] [ArrearsAccess σ] : Prop where
  terms (loan : LoanId) : (BookAccess.terms loan : Act σ AgingTerms).ApartFromFetches
  plannedInstallments (loan : LoanId) :
    (BookAccess.plannedInstallments loan : Act σ (List PlannedInstallment)).ApartFromFetches
  liveInstallments (loan : LoanId) :
    (BookAccess.liveInstallments loan : Act σ (List LiveInstallment)).ApartFromFetches
  consumption (loan : LoanId) : (BookAccess.consumption loan : Act σ Consumption).ApartFromFetches
  write (w : ArrearsWrite) : (ArrearsAccess.write w : Act σ Unit).ApartFromFetches
  writeBatch (ws : List ArrearsWrite) : (ArrearsAccess.writeBatch ws : Act σ Unit).ApartFromFetches

/-! ## Plain stores -/

namespace Store

/-- What is asked of the book depends on the book only. -/
theorem exec_queryBook_congr {table : String} {f : Book → Except Error α} {s t : Store}
    (h : s.tables.map (·.book) = t.tables.map (·.book)) :
    ((reading (queryBook table f) : Act Store α).exec s).1 =
      ((reading (queryBook table f) : Act Store α).exec t).1 := by
  rcases s with ⟨_ | ⟨b, ts⟩, tx⟩
  all_goals rcases t with ⟨_ | ⟨b', t's⟩, tx'⟩
  · rfl
  · cases h
  · cases h
  · obtain rfl : b = b' := Option.some.inj h
    have hreads (tx : Bool) (t : ArrearsTable) :=
      HasBook.reads_queryBook (s := ⟨some ⟨b, t⟩, tx⟩) ⟨t, rfl⟩ table f
    rw [hreads, hreads]

/-- Fetches read the book only. -/
theorem apartFromFetches {b : Act Store β} (hb : b.Keeps fun s => s.tables.map (·.book)) :
    b.ApartFromFetches := fun after pageSize today =>
  .of_keeps (keeps_queryBook id Names.loan fun b => .ok (b.candidates after pageSize today))
    fun s => exec_queryBook_congr (hb s)

theorem fetchesApart : FetchesApart Store where
  terms _ := apartFromFetches (keeps_queryBook _ _ _)
  plannedInstallments _ := apartFromFetches (keeps_queryBook _ _ _)
  liveInstallments _ := apartFromFetches (keeps_queryBook _ _ _)
  consumption _ := apartFromFetches (keeps_queryBook _ _ _)
  write w := apartFromFetches (keeps_book_write w)
  writeBatch ws := apartFromFetches (keeps_book_writeBatch ws)

end Store

/-! ## Plans of faults -/

namespace FaultRule

theorem isFor_call (r : FaultRule) (site : Site) (loan : Option LoanId) :
    r.call.2.isFor site loan = r.isFor site loan := by
  unfold call
  split
  · rfl
  · split <;> rfl

end FaultRule

namespace FaultPlan

variable {site site' : Site} {loan loan' : Option LoanId}

/-- A rule is for one kind of call. -/
theorem not_isFor_of_isFor (hne : site ≠ site' ∨ loan ≠ loan') {r : FaultRule}
    (h : r.isFor site loan = true) : r.isFor site' loan' = false := by
  simp only [FaultRule.isFor, Bool.and_eq_true, decide_eq_true_eq] at h
  obtain ⟨rfl, rfl⟩ := h
  simp only [FaultRule.isFor, Bool.and_eq_false_iff, decide_eq_false_iff_not]
  exact hne

/-- Calls of different kinds are up to different rules. -/
theorem call_comm (hne : site ≠ site' ∨ loan ≠ loan') (plan : FaultPlan) :
    (call site' loan' (call site loan plan).2).1 = (call site' loan' plan).1 ∧
      (call site' loan' (call site loan plan).2).2 =
        (call site loan (call site' loan' plan).2).2 := by
  induction plan with
  | nil => exact ⟨rfl, rfl⟩
  | cons r rest ih =>
    cases hr : r.isFor site loan with
    | true =>
      have hr' := not_isFor_of_isFor hne hr
      simp [call, hr, hr', FaultRule.isFor_call]
    | false =>
      cases hr' : r.isFor site' loan' with
      | true => simp [call, hr, hr', FaultRule.isFor_call]
      | false => simpa [call, hr, hr'] using ih

end FaultPlan

namespace Faulty

variable {site site' : Site} {loan loan' : Option LoanId}

theorem exec_meet (site : Site) (loan : Option LoanId) (s : Faulty σ) :
    (meet site loan : Act (Faulty σ) Unit).exec s =
      (match (s.plan.call site loan).1 with
        | some f => .error f
        | none => .ok (), { s with plan := (s.plan.call site loan).2 }) := by
  rw [meet, Act.exec_ofExec]
  dsimp only
  split <;> simp_all

theorem commutes_meet_meet (hne : site ≠ site' ∨ loan ≠ loan') :
    (meet site loan : Act (Faulty σ) Unit).Commutes
      (meet site' loan' : Act (Faulty σ) Unit) := by
  rintro r s t h
  have hne' : site' ≠ site ∨ loan' ≠ loan := hne.imp Ne.symm Ne.symm
  rw [exec_meet] at h
  cases h
  simp only [exec_meet, (FaultPlan.call_comm hne s.plan).1, (FaultPlan.call_comm hne' s.plan).1,
    (FaultPlan.call_comm hne s.plan).2, and_self]

theorem commutes_meet_onInner (a : Act σ α) :
    (meet site loan : Act (Faulty σ) Unit).Commutes (onInner a : Act (Faulty σ) α) := by
  rintro r s t h
  rw [exec_meet] at h
  cases h
  exact ⟨rfl, exec_meet ..⟩

theorem commutes_onInner_onInner {a : Act σ α} {b : Act σ β} (h : a.Commutes b) :
    (onInner a : Act (Faulty σ) α).Commutes (onInner b : Act (Faulty σ) β) := by
  rintro r s t ha
  cases ha
  obtain ⟨hanswer, hend⟩ := h (a.exec s.inner).1 s.inner (a.exec s.inner).2 rfl
  refine ⟨hanswer, ?_⟩
  simp only [onInner, Act.exec_zoom, hend]
  rfl

/-- Count the load of a loan, or a batch. -/
def count (loads : List (LoanId × Nat) → List (LoanId × Nat)) (batches : Nat → Nat) :
    Act (Faulty σ) PUnit :=
  modify fun s => { s with loads := loads s.loads, batches := batches s.batches }

theorem commutes_meet_count (loads : List (LoanId × Nat) → List (LoanId × Nat))
    (batches : Nat → Nat) :
    (meet site loan : Act (Faulty σ) Unit).Commutes (count loads batches) := by
  rintro r s t h
  rw [exec_meet] at h
  cases h
  exact ⟨rfl, exec_meet ..⟩

theorem commutes_onInner_count (a : Act σ α) (loads : List (LoanId × Nat) → List (LoanId × Nat))
    (batches : Nat → Nat) :
    (onInner a : Act (Faulty σ) α).Commutes (count loads batches) := by
  rintro r s t h
  cases h
  exact ⟨rfl, rfl⟩

/-- Which loans seem to have no planned schedule is the same for ever. -/
theorem commutes_plannedInstallments [BookAccess σ] {a : Act (Faulty σ) α} {loan : LoanId}
    (ha : a.Keeps (·.withoutPlanned))
    (hinner : a.Commutes
      (onInner (BookAccess.plannedInstallments loan) : Act (Faulty σ) (List PlannedInstallment))) :
    a.Commutes (do
      if loan ∈ (← get).withoutPlanned then return []
      onInner (BookAccess.plannedInstallments loan) :
        Act (Faulty σ) (List PlannedInstallment)) := by
  rintro r s t h
  rw [Act.exec_bind_ok (Act.exec_get s), Act.exec_bind_ok (Act.exec_get t), ha.view_eq h]
  split
  · exact Act.Commutes.pure [] r s t h
  · exact hinner r s t h

/-- What commutes with both parts of a fetch commutes with the fetch. -/
theorem apartFromFetches [BookAccess σ] {b : Act (Faulty σ) β}
    (hmeet : (meet .fetch none : Act (Faulty σ) Unit).Commutes b)
    (hinner : ∀ after pageSize today,
      (onInner (BookAccess.candidates after pageSize today) :
        Act (Faulty σ) (List LoanId)).Commutes b) : b.ApartFromFetches :=
  fun after pageSize today =>
    (Act.Commutes.bind hmeet.symm fun _ => (hinner after pageSize today).symm).symm

theorem apartFromFetches_count [BookAccess σ]
    (loads : List (LoanId × Nat) → List (LoanId × Nat)) (batches : Nat → Nat) :
    (count loads batches : Act (Faulty σ) PUnit).ApartFromFetches :=
  apartFromFetches (commutes_meet_count loads batches) fun _ _ _ =>
    commutes_onInner_count _ loads batches

theorem apartFromFetches_meet [BookAccess σ] (site : Site) (loan : LoanId) :
    (meet site (some loan) : Act (Faulty σ) Unit).ApartFromFetches :=
  apartFromFetches (commutes_meet_meet (.inr (Option.some_ne_none loan).symm)) fun _ _ _ =>
    (commutes_meet_onInner _).symm

theorem apartFromFetches_onInner [BookAccess σ] {b : Act σ β} (hb : b.ApartFromFetches) :
    (onInner b : Act (Faulty σ) β).ApartFromFetches :=
  apartFromFetches (commutes_meet_onInner b) fun after pageSize today =>
    commutes_onInner_onInner (hb after pageSize today)

/-- A call for a loan that is met by the plan first. -/
theorem apartFromFetches_call [BookAccess σ] {b : Act σ β} (hb : b.ApartFromFetches) (site : Site)
    (loan : LoanId) :
    (do
      meet site (some loan)
      onInner b : Act (Faulty σ) β).ApartFromFetches := fun after pageSize today =>
  .bind (apartFromFetches_meet site loan after pageSize today) fun _ =>
    apartFromFetches_onInner hb after pageSize today

/-- A plan of faults keeps fetches apart from postings. -/
theorem fetchesApart [BookAccess σ] [ArrearsAccess σ] (h : FetchesApart σ) :
    FetchesApart (Faulty σ) where
  terms loan after pageSize today :=
    .bind (apartFromFetches_count (countLoad loan) id after pageSize today) fun _ =>
      apartFromFetches_call (h.terms loan) .terms loan after pageSize today
  plannedInstallments loan after pageSize today := by
    refine .bind (apartFromFetches_meet .planned loan after pageSize today) fun _ => ?_
    refine apartFromFetches ?_ ?_ after pageSize today
    · exact commutes_plannedInstallments (fun s => by rw [exec_meet]) (commutes_meet_onInner _)
    · intro after pageSize today
      exact commutes_plannedInstallments (fun s => rfl)
        (commutes_onInner_onInner (h.plannedInstallments loan after pageSize today))
  liveInstallments loan := apartFromFetches_call (h.liveInstallments loan) .live loan
  consumption loan := apartFromFetches_call (h.consumption loan) .consumption loan
  write w := apartFromFetches_call (h.write w) .write w.loan
  writeBatch ws after pageSize today :=
    .bind (apartFromFetches_count id (· + 1) after pageSize today) fun _ =>
      .bind (.forM (fun w => apartFromFetches_meet .batch w.loan after pageSize today) ws) fun _ =>
        apartFromFetches_onInner (h.writeBatch ws) after pageSize today

end Faulty

end LoanArrears
