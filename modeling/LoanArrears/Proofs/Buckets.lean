-- SUMMARY: The four buckets by name, and operations on all buckets read off one bucket at a time.
import LoanArrears.Book.Stored
import LoanArrears.Buckets
import Mathlib.Tactic.Choose

/-!
# Buckets one at a time

`Buckets.get` picks the value of one bucket. An operation on all buckets does the same in
each of them, so its laws are laws about `get`. One that can fail succeeds when it succeeds
in every bucket, and an error of it is an error in some bucket.
-/

namespace LoanArrears

inductive Bucket where
  | principal
  | interest
  | fee
  | penalty
deriving DecidableEq

instance {p : Bucket → Prop} [DecidablePred p] : Decidable (∀ i, p i) :=
  decidable_of_iff (p .principal ∧ p .interest ∧ p .fee ∧ p .penalty)
    ⟨fun h i => by cases i <;> simp [h], fun h => ⟨h _, h _, h _, h _⟩⟩

namespace Buckets

def get (b : Buckets α) : Bucket → α
  | .principal => b.principal
  | .interest => b.interest
  | .fee => b.fee
  | .penalty => b.penalty

/-- The buckets with given values. -/
def tabulate (f : Bucket → α) : Buckets α :=
  ⟨f .principal, f .interest, f .fee, f .penalty⟩

@[simp] theorem get_tabulate (f : Bucket → α) (i : Bucket) : (tabulate f).get i = f i := by
  cases i <;> rfl

theorem ext_get {a b : Buckets α} (h : ∀ i, a.get i = b.get i) : a = b := by
  cases a
  cases b
  rw [Buckets.mk.injEq]
  exact ⟨h .principal, h .interest, h .fee, h .penalty⟩

@[simp] theorem get_all (a : α) (i : Bucket) : (all a).get i = a := by
  cases i <;> rfl

@[simp] theorem get_map (f : α → β) (b : Buckets α) (i : Bucket) :
    (b.map f).get i = f (b.get i) := by
  cases i <;> rfl

@[simp] theorem get_zipWith (f : α → β → γ) (a : Buckets α) (b : Buckets β) (i : Bucket) :
    (a.zipWith f b).get i = f (a.get i) (b.get i) := by
  cases i <;> rfl

theorem forall_mem_toList {b : Buckets α} {p : α → Prop} :
    (∀ a ∈ b.toList, p a) ↔ ∀ i, p (b.get i) := by
  constructor
  · intro h i
    cases i <;> exact h _ (by simp [toList, get])
  · intro h a ha
    simp only [toList, List.mem_cons, List.not_mem_nil, or_false] at ha
    rcases ha with rfl | rfl | rfl | rfl
    · exact h .principal
    · exact h .interest
    · exact h .fee
    · exact h .penalty

/-! ## Operations that can fail -/

variable {ε : Type}

theorem mapM_eq_ok_iff {f : α → Except ε β} {b : Buckets α} {c : Buckets β} :
    b.mapM f = .ok c ↔ ∀ i, f (b.get i) = .ok (c.get i) := by
  constructor
  · intro h
    simp only [mapM, bind, Except.bind, pure, Except.pure] at h
    split at h
    · contradiction
    split at h
    · contradiction
    split at h
    · contradiction
    split at h
    · contradiction
    cases h
    intro i
    cases i <;> assumption
  · intro h
    have h₁ := h .principal
    have h₂ := h .interest
    have h₃ := h .fee
    have h₄ := h .penalty
    simp only [get] at h₁ h₂ h₃ h₄
    simp only [mapM, h₁, h₂, h₃, h₄]
    rfl

theorem mapM_eq_error {f : α → Except ε β} {b : Buckets α} {e : ε} (h : b.mapM f = .error e) :
    ∃ i, f (b.get i) = .error e := by
  simp only [mapM, bind, Except.bind, pure, Except.pure] at h
  split at h
  · next he => exact ⟨.principal, by cases h; exact he⟩
  split at h
  · next he => exact ⟨.interest, by cases h; exact he⟩
  split at h
  · next he => exact ⟨.fee, by cases h; exact he⟩
  split at h
  · next he => exact ⟨.penalty, by cases h; exact he⟩
  · cases h

/-- What succeeds in every bucket succeeds. -/
theorem exists_mapM_eq_ok {f : α → Except ε β} {b : Buckets α} {p : Bucket → β → Prop}
    (h : ∀ i, ∃ c, f (b.get i) = .ok c ∧ p i c) :
    ∃ c : Buckets β, b.mapM f = .ok c ∧ ∀ i, p i (c.get i) := by
  choose c hc hp using h
  refine ⟨tabulate c, mapM_eq_ok_iff.2 ?_, ?_⟩
  · intro i
    rw [get_tabulate, hc]
  · intro i
    rw [get_tabulate]
    exact hp i

theorem zipWithM_eq_mapM (f : α → β → Except ε γ) (a : Buckets α) (b : Buckets β) :
    a.zipWithM f b = (a.zipWith f b).mapM id := rfl

theorem zipWithM_eq_ok_iff {f : α → β → Except ε γ} {a : Buckets α} {b : Buckets β}
    {c : Buckets γ} : a.zipWithM f b = .ok c ↔ ∀ i, f (a.get i) (b.get i) = .ok (c.get i) := by
  rw [zipWithM_eq_mapM, mapM_eq_ok_iff]
  simp only [get_zipWith, id]

theorem exists_zipWithM_eq_ok {f : α → β → Except ε γ} {a : Buckets α} {b : Buckets β}
    {p : Bucket → γ → Prop} (h : ∀ i, ∃ c, f (a.get i) (b.get i) = .ok c ∧ p i c) :
    ∃ c : Buckets γ, a.zipWithM f b = .ok c ∧ ∀ i, p i (c.get i) := by
  rw [zipWithM_eq_mapM]
  apply exists_mapM_eq_ok
  intro i
  rw [get_zipWith]
  exact h i

/-! ## Reading columns -/

/-- Columns can be read when all of them are exact. -/
theorem readStored_eq_ok_iff {b : Buckets Stored} {index : Nat} {columns : Buckets String}
    {c : Buckets Cents} :
    b.readStored index columns = .ok c ↔ b = c.map .exact := by
  have hread {a : Stored} {i : Nat} {name : String} {c : Cents} (h : a.read i name = .ok c) :
      a = .exact c := by
    cases a with
    | exact a => cases h; rfl
    | approx v => cases h
  have hmapM : b.readStored index columns = (Buckets.mk
      (b.principal.read index columns.principal) (b.interest.read (index + 1) columns.interest)
      (b.fee.read (index + 2) columns.fee)
      (b.penalty.read (index + 3) columns.penalty)).mapM id := rfl
  rw [hmapM, mapM_eq_ok_iff]
  constructor
  · intro h
    apply ext_get
    intro i
    rw [get_map]
    cases i
    · exact hread (h .principal)
    · exact hread (h .interest)
    · exact hread (h .fee)
    · exact hread (h .penalty)
  · rintro rfl i
    cases i <;> rfl

/-- A column that cannot be read is bad data of the row. -/
theorem class_of_readStored_eq_error {b : Buckets Stored} {index : Nat} {columns : Buckets String}
    {e : Error} (h : b.readStored index columns = .error e) : e.class = .data := by
  have hread {a : Stored} {i : Nat} {name : String} (he : a.read i name = .error e) :
      e.class = .data := by
    cases a with
    | exact c => cases he
    | approx v => cases he; rfl
  obtain ⟨i, hi⟩ := mapM_eq_error (f := id) (b := Buckets.mk
    (b.principal.read index columns.principal) (b.interest.read (index + 1) columns.interest)
    (b.fee.read (index + 2) columns.fee) (b.penalty.read (index + 3) columns.penalty)) h
  cases i <;> exact hread hi

end Buckets

end LoanArrears
