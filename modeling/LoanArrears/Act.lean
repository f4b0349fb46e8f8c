-- SUMMARY: Operations on a store that may fail or crash, and running them on a part of a larger state.
import LoanArrears.Error

/-!
# Acts

`Act σ α` is an operation on a store `σ` that answers an `α` or ends with a
fault. The store it leaves behind counts also when it fails.
-/

namespace LoanArrears

abbrev Act (σ α : Type) : Type :=
  ExceptT Fault (StateM σ) α

namespace Act

def fail (e : Error) : Act σ α :=
  throw (.error e)

def crash (c : Crash) : Act σ α :=
  throw (.crash c)

instance : MonadLift (Except Crash) (Act σ) where
  monadLift
    | .ok a => pure a
    | .error c => crash c

instance : MonadLift (Except Error) (Act σ) where
  monadLift
    | .ok a => pure a
    | .error e => fail e

instance : MonadLift (Except Fault) (Act σ) where
  monadLift
    | .ok a => pure a
    | .error f => throw f

/-- The answer and the store left behind. -/
def exec (a : Act σ α) (s : σ) : Except Fault α × σ :=
  a.run.run s

def ofExec (f : σ → Except Fault α × σ) : Act σ α :=
  ExceptT.mk f

/-- The answer or the error; a crash goes through. -/
def attempt (a : Act σ α) : Act σ (Except Error α) :=
  ofExec fun s =>
    match a.exec s with
    | (.ok v, s) => (.ok (.ok v), s)
    | (.error (.error e), s) => (.ok (.error e), s)
    | (.error (.crash c), s) => (.error (.crash c), s)

/-- The answer or the fault. -/
def outcome (a : Act σ α) : Act σ (Except Fault α) :=
  ofExec fun s =>
    let (r, s) := a.exec s
    (.ok r, s)

/-- Run on a part of a larger store. -/
def zoom (get : τ → σ) (set : σ → τ → τ) (a : Act σ α) : Act τ α :=
  ofExec fun t =>
    let (r, s) := a.exec (get t)
    (r, set s t)

/-- The second operation starts from the store that the first one leaves. -/
theorem exec_bind (a : Act σ α) (f : α → Act σ β) (s : σ) :
    (a >>= f).exec s =
      match a.exec s with
      | (.ok v, t) => (f v).exec t
      | (.error e, t) => (.error e, t) := by
  simp only [exec, bind, ExceptT.bind, ExceptT.mk, ExceptT.run, StateT.bind, StateT.run]
  rcases a s with ⟨_ | _, _⟩ <;> rfl

@[simp] theorem exec_ofExec (f : σ → Except Fault α × σ) (s : σ) : (ofExec f).exec s = f s := rfl

end Act

end LoanArrears
