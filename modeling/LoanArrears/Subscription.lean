-- SUMMARY: Listeners to business events, the table of subscriptions, and delivering events within the transaction of an operation.
import LoanArrears.Event
import LoanArrears.Recompute

/-!
# Subscriptions

Operations on loans make events known, and listeners subscribed to their kinds
act on them. The table of subscriptions is put together beforehand.

An operation and the delivery of its events are one transaction: if a listener
fails, nothing happened at all.
-/

namespace LoanArrears

structure Listener (σ : Type) where
  name : String
  onEvent : LoanEvent → Act σ Unit

/-- How a loan is recomputed after an event: a loan just disbursed has no other
    schedule than the live one. -/
def EventKind.agingMode : EventKind → AgingMode
  | .disbursed => .forceLive
  | _ => .auto

theorem EventKind.agingMode_eq (k : EventKind) :
    k.agingMode = if k = .disbursed then .forceLive else .auto := by
  cases k <;> rfl

/-- The listener that keeps the arrears table current, with the business date of
    the store. -/
def Listener.arrearsAging [BookAccess σ] [ArrearsAccess σ] (today : σ → Date) : Listener σ where
  name := "arrears_aging"
  onEvent e := do
    let _ ← recompute e.loan (today (← get)) e.kind.agingMode

/-! ## Subscriptions -/

/-- Kinds and their listeners, in the order of subscription. -/
structure Subscriptions (σ : Type) where
  routes : List (EventKind × Listener σ)

namespace Subscriptions

def empty : Subscriptions σ :=
  ⟨[]⟩

def subscribe (t : Subscriptions σ) (kinds : List EventKind) (l : Listener σ) :
    Subscriptions σ :=
  ⟨t.routes ++ kinds.map (·, l)⟩

/-- The arrears listener on every trigger. -/
def standard [BookAccess σ] [ArrearsAccess σ] (today : σ → Date) : Subscriptions σ :=
  empty.subscribe EventKind.triggers (.arrearsAging today)

def listeners (t : Subscriptions σ) (kind : EventKind) : List (Listener σ) :=
  (t.routes.filter (·.1 = kind)).map (·.2)

def isSubscribed (t : Subscriptions σ) (kind : EventKind) : Bool :=
  !(t.listeners kind).isEmpty

/-! ## Delivery -/

/-- Deliver an event to its listeners in order; the first error ends it. Answers
    how many there are. -/
def deliver (t : Subscriptions σ) (e : LoanEvent) : Act σ Nat := do
  let listeners := t.listeners e.kind
  listeners.forM (·.onEvent e)
  return listeners.length

/-- Run an operation and deliver its events, in one transaction. -/
def perform [Transactions σ] (t : Subscriptions σ) (operation : Act σ (α × List LoanEvent)) :
    Act σ α :=
  Transactions.atomically do
    let (answer, events) ← operation
    events.forM fun e => discard (t.deliver e)
    return answer

end Subscriptions

end LoanArrears
