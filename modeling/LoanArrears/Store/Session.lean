-- SUMMARY: One of several connections to the same tables: what it sees while its transaction is open, and when it cannot change them.
import LoanArrears.Store.Basic

/-!
# Sessions

A `Session` is a connection to tables that others use as well. Outside of a
transaction each of its statements counts at once. A transaction sees the tables
as it found them at its first statement. From its first change on, no other
connection can change them; and if another one has changed them since that first
statement, it cannot change them any more itself.
-/

namespace LoanArrears

/-- How a transaction has used the tables so far. -/
inductive TableUse where
  | untouched
  | reading
  /-- Another connection has changed the tables that it has read. -/
  | outdated
  | changing
deriving DecidableEq

/-- The use after one more statement; none if it is refused. -/
def TableUse.next? (changes : Bool) : TableUse → Option TableUse
  | .untouched | .reading => some (if changes then .changing else .reading)
  | .outdated => if changes then none else some .outdated
  | .changing => some .changing

structure OpenTransaction where
  /-- The tables as other connections see them. -/
  committed : Option Tables
  use : TableUse

structure Session where
  store : Store
  opened : Option OpenTransaction
  /-- Another connection is changing the tables. -/
  blocked : Bool
  /-- It has changed the tables outside of a transaction. -/
  changed : Bool

namespace Session

def ofStore (s : Store) : Session :=
  ⟨s, none, false, false⟩

/-- Another connection stands in the way. -/
def locked : Error :=
  .database (.failure DatabaseError.busy (some "database is locked"))

def beforeStatement (changes : Bool) (s : Session) : Except Error Session :=
  match s.opened with
  | none =>
    if !changes then .ok s
    else if s.blocked then .error locked
    else .ok { s with changed := true }
  | some t =>
    match t.use.next? changes with
    | some use => .ok { s with opened := some { t with use } }
    | none => .error locked

/-! ## Transactions -/

def begin (s : Session) : Session :=
  { s with
    store := { s.store with inTransaction := true }
    opened := some ⟨s.store.tables, .untouched⟩ }

/-- End the transaction. Its changes, if it has made some, are kept or undone. -/
def finish (keep : Bool) (s : Session) : Session :=
  match s.opened with
  | none => s
  | some t =>
    let tables := if keep && t.use = .changing then s.store.tables else t.committed
    { s with store := ⟨tables, false⟩, opened := none }

/-! ## Other connections -/

/-- Another connection to the same tables. -/
def other (s : Session) : Session :=
  match s.opened with
  | none => s
  | some t => ⟨⟨t.committed, false⟩, none, t.use = .changing, false⟩

/-- The session after another connection has done its work. -/
def rejoin (s done : Session) : Session :=
  match s.opened with
  | none => done
  | some t =>
    let tables := done.store.tables
    match t.use with
    | .untouched =>
      { s with store := { s.store with tables }, opened := some { t with committed := tables } }
    | .reading =>
      { s with opened := some ⟨tables, if done.changed then .outdated else .reading⟩ }
    | use => { s with opened := some ⟨tables, use⟩ }

end Session

/-! ## Acts in a session -/

class HasSession (σ : Type) where
  session : σ → Session
  setSession : Session → σ → σ

variable [HasSession σ]

instance : HasStore σ where
  store s := (HasSession.session s).store
  setStore store s := HasSession.setSession { HasSession.session s with store } s
  beforeStatement changes := Act.ofExec fun s =>
    match (HasSession.session s).beforeStatement changes with
    | .ok c => (.ok (), HasSession.setSession c s)
    | .error e => (.error (.error e), s)

/-- Run an operation in a transaction of the session. -/
def Session.atomically (a : Act σ α) : Act σ α :=
  Act.ofExec fun s =>
    let c := HasSession.session s
    if c.store.inTransaction then (.error (.error Store.nestedTransaction), s)
    else
      let (r, t) := a.exec (HasSession.setSession c.begin s)
      (r, HasSession.setSession ((HasSession.session t).finish r.isOk) t)

instance : Transactions σ where
  atomically := Session.atomically

end LoanArrears
