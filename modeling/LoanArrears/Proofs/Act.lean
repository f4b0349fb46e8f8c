-- SUMMARY: How acts run: sequences after a success or a failure, lifted computations, and acts that only read the store.
import LoanArrears.Act

/-!
# Running acts

`exec_bind_ok` and `exec_bind_error` run a sequence whose first part is known. An act
`Reads` an answer off a store if it gives that answer and leaves the store as it is;
sequences of such acts read what the same sequence of plain computations gives.
-/

namespace LoanArrears

/-- A sequence that succeeds succeeds in both parts. -/
theorem exists_of_bind_eq_ok {ε α β : Type} {x : Except ε α} {f : α → Except ε β} {b : β}
    (h : x >>= f = .ok b) : ∃ a, x = .ok a ∧ f a = .ok b := by
  cases x with
  | error e => cases h
  | ok a => exact ⟨a, rfl, h⟩

/-- A list can be mapped when each of its members can. -/
theorem exists_mapM_eq_ok_iff {ε α β : Type} {f : α → Except ε β} {xs : List α} :
    (∃ ys, xs.mapM f = .ok ys) ↔ ∀ x ∈ xs, ∃ y, f x = .ok y := by
  induction xs with
  | nil => exact iff_of_true ⟨[], rfl⟩ (List.forall_mem_nil _)
  | cons x xs ih =>
    rw [List.forall_mem_cons, ← ih, List.mapM_cons]
    constructor
    · rintro ⟨ys, h⟩
      obtain ⟨y, hy, h⟩ := exists_of_bind_eq_ok h
      obtain ⟨others, hothers, -⟩ := exists_of_bind_eq_ok h
      exact ⟨⟨y, hy⟩, others, hothers⟩
    · rintro ⟨⟨y, hy⟩, others, hothers⟩
      rw [hy, hothers]
      exact ⟨y :: others, rfl⟩

theorem length_eq_of_mapM_eq_ok {ε α β : Type} {f : α → Except ε β} {xs : List α} {ys : List β}
    (h : xs.mapM f = .ok ys) : ys.length = xs.length := by
  induction xs generalizing ys with
  | nil =>
    cases h
    rfl
  | cons x xs ih =>
    rw [List.mapM_cons] at h
    obtain ⟨y, -, h⟩ := exists_of_bind_eq_ok h
    obtain ⟨others, hothers, h⟩ := exists_of_bind_eq_ok h
    cases h
    rw [List.length_cons, ih hothers, List.length_cons]

theorem eq_ok_of_lift_crash {x : Except Crash α} {a : α}
    (h : (liftM x : Except Fault α) = .ok a) : x = .ok a := by
  cases x with
  | error c => cases h
  | ok v => cases h; rfl

namespace Act

variable {σ τ α β : Type}

theorem exec_bind_ok {a : Act σ α} {f : α → Act σ β} {s t : σ} {v : α}
    (h : a.exec s = (.ok v, t)) : (a >>= f).exec s = (f v).exec t := by
  rw [exec_bind, h]

theorem exec_bind_error {a : Act σ α} {f : α → Act σ β} {s t : σ} {e : Fault}
    (h : a.exec s = (.error e, t)) : (a >>= f).exec s = (.error e, t) := by
  rw [exec_bind, h]

/-- A sequence succeeds only if both parts do. -/
theorem exists_of_exec_bind_ok {a : Act σ α} {f : α → Act σ β} {s t : σ} {v : β}
    (h : (a >>= f).exec s = (.ok v, t)) :
    ∃ u s₁, a.exec s = (.ok u, s₁) ∧ (f u).exec s₁ = (.ok v, t) := by
  rcases hexec : a.exec s with ⟨_ | u, s₁⟩
  · rw [exec_bind_error hexec] at h
    cases h
  · rw [exec_bind_ok hexec] at h
    exact ⟨u, s₁, rfl, h⟩

theorem exec_map (a : Act σ α) (f : α → β) (s : σ) :
    (f <$> a).exec s = ((a.exec s).1.map f, (a.exec s).2) := by
  have hmap : f <$> a = a >>= fun v => pure (f v) := by
    rw [bind_pure_comp]
  rw [hmap, exec_bind]
  rcases a.exec s with ⟨_ | _, _⟩ <;> rfl

/-- A mapped act succeeds only with the image of an answer. -/
theorem exists_of_exec_map_ok {a : Act σ α} {f : α → β} {s t : σ} {v : β}
    (h : (f <$> a).exec s = (.ok v, t)) : ∃ u, a.exec s = (.ok u, t) ∧ f u = v := by
  rw [exec_map] at h
  rcases hexec : a.exec s with ⟨_ | u, t'⟩
  · rw [hexec] at h
    cases h
  · rw [hexec] at h
    cases h
    exact ⟨u, rfl, rfl⟩

@[simp] theorem exec_get (s : σ) : (get : Act σ σ).exec s = (.ok s, s) := rfl

theorem exec_zoom (get : τ → σ) (set : σ → τ → τ) (a : Act σ α) (t : τ) :
    (a.zoom get set).exec t = ((a.exec (get t)).1, set (a.exec (get t)).2 t) := rfl

theorem exec_attempt_ok {a : Act σ α} {s t : σ} {v : α} (h : a.exec s = (.ok v, t)) :
    a.attempt.exec s = (.ok (.ok v), t) := by
  rw [attempt, exec_ofExec, h]

theorem exec_attempt_error {a : Act σ α} {s t : σ} {e : Error}
    (h : a.exec s = (.error (.error e), t)) : a.attempt.exec s = (.ok (.error e), t) := by
  rw [attempt, exec_ofExec, h]

theorem exec_attempt_crash {a : Act σ α} {s t : σ} {c : Crash}
    (h : a.exec s = (.error (.crash c), t)) : a.attempt.exec s = (.error (.crash c), t) := by
  rw [attempt, exec_ofExec, h]

theorem exec_outcome (a : Act σ α) (s : σ) : a.outcome.exec s = (.ok (a.exec s).1, (a.exec s).2) :=
  rfl

/-! ## Reading -/

/-- The act gives the answer or the fault, and leaves the store as it is. -/
def Reads (a : Act σ α) (s : σ) (r : Except Fault α) : Prop :=
  a.exec s = (r, s)

namespace Reads

variable {s : σ}

theorem pure (v : α) : (Pure.pure v : Act σ α).Reads s (.ok v) := rfl

theorem bind {a : Act σ α} {r : Except Fault α} {f : α → Act σ β} {g : α → Except Fault β}
    (ha : a.Reads s r) (hf : ∀ v, (f v).Reads s (g v)) : (a >>= f).Reads s (r >>= g) := by
  cases r with
  | ok v =>
    unfold Reads
    rw [exec_bind_ok ha]
    exact hf v
  | error e => exact exec_bind_error ha

theorem bind_ok {a : Act σ α} {v : α} {f : α → Act σ β} {r : Except Fault β}
    (ha : a.Reads s (.ok v)) (hf : (f v).Reads s r) : (a >>= f).Reads s r := by
  unfold Reads
  rw [exec_bind_ok ha]
  exact hf

theorem lift_crash (x : Except Crash α) :
    (liftM x : Act σ α).Reads s (liftM x : Except Fault α) := by
  cases x <;> rfl

theorem lift_error (x : Except Error α) :
    (liftM x : Act σ α).Reads s (liftM x : Except Fault α) := by
  cases x <;> rfl

theorem lift_fault (x : Except Fault α) : (liftM x : Act σ α).Reads s x := by
  cases x <;> rfl

end Reads

end Act

end LoanArrears
