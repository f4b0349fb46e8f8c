-- SUMMARY: Stores that fail on demand: fault plans, and a wrapper that follows one and counts what was asked of the store.
import LoanArrears.Store.Access

/-!
# Faults on demand

A `FaultPlan` names sites of a store and the faults that calls there end with.
A rule for a loan fires on calls for that loan; a rule for a whole site lets
some calls pass first. A call that fails does nothing else.

`Faulty σ` is a store `σ` under a plan. It counts the batches that were asked
for, and how often the terms of each loan were read.
-/

namespace LoanArrears

inductive Site where
  | terms
  | planned
  | live
  | consumption
  | write
  | batch
  | fetch
  | reset
  | bulk
  | connect
deriving DecidableEq

def Site.name : Site → String
  | .terms => "context"
  | .planned => "original"
  | .live => "live"
  | .consumption => "summary"
  | .write => "write"
  | .batch => "batch"
  | .fetch => "fetch"
  | .reset => "reset"
  | .bulk => "bulk"
  | .connect => "connect"

def Site.all : List Site :=
  [.terms, .planned, .live, .consumption, .write, .batch, .fetch, .reset, .bulk, .connect]

def Site.ofName? (name : String) : Option Site :=
  all.find? (·.name = name)

/-! ## Kinds -/

/-- The faults that can be asked for by name. -/
def Fault.ofName (name : String) : Fault :=
  let failure (code : Int) (text : String) := Fault.error (.database (.failure code (some text)))
  match name with
  | "busy" => failure 5 "database is locked"
  | "locked" => failure 6 "database table is locked"
  | "full" => failure 13 "database or disk is full"
  | "ioerr" => failure 10 "disk I/O error"
  | "constraint" => failure 19 "CHECK constraint failed: loan_arrears_aging"
  | "mismatch" => failure 20 "datatype mismatch"
  | "query" => .error (.database .notReadOnly)
  | "no_rows" => .error (.database .noRows)
  | "range" => .error (.database (.integerOutOfRange 3 (-7)))
  | "column_type" => .error (.database (.columnType 2 "due_date" "Integer"))
  | "conversion" => .error (.database (.conversion 1 "bad date"))
  | "conflict" => .error (.conflict "version 3 != 4")
  | "not_found" => .error (.loanNotFound 404)
  | "invalid" => .error (.invalidLoan 9 (.reported "injected"))
  | "other" => .error (.other "something else")
  | "pool" => .error (.pool "injected")
  | "panic" => .crash .injected
  | _ => .error (.pool ("unknown fault " ++ name))

/-! ## Plans -/

structure FaultRule where
  site : Site
  /-- The rule is for calls that concern this loan, or for the whole site. -/
  loan : Option LoanId
  fault : Fault
  /-- How often the fault still comes; always if there is no number. -/
  times : Option Nat
  /-- Calls that pass before, if the rule is for the whole site. -/
  skip : Nat

abbrev FaultPlan : Type :=
  List FaultRule

namespace FaultRule

def isFor (r : FaultRule) (site : Site) (loan : Option LoanId) : Bool :=
  r.site = site && r.loan = loan

/-- The fault of a call, and the rule for the calls after it. -/
def call (r : FaultRule) : Option Fault × FaultRule :=
  if r.loan.isNone && 0 < r.skip then (none, { r with skip := r.skip - 1 })
  else match r.times with
    | none => (some r.fault, r)
    | some 0 => (none, r)
    | some (n + 1) => (some r.fault, { r with times := some n })

end FaultRule

namespace FaultPlan

/-- Add a rule; it takes the place of one for the same calls. -/
def add (plan : FaultPlan) (r : FaultRule) : FaultPlan :=
  plan.filter (!·.isFor r.site r.loan) ++ [r]

/-- The fault of a call, and the plan for the calls after it. -/
def call (site : Site) (loan : Option LoanId) : FaultPlan → Option Fault × FaultPlan
  | [] => (none, [])
  | r :: rest =>
    if r.isFor site loan then
      let (fault, r) := r.call
      (fault, r :: rest)
    else
      let (fault, rest) := call site loan rest
      (fault, r :: rest)

end FaultPlan

/-! ## Stores under a plan -/

structure Faulty (σ : Type) where
  inner : σ
  plan : FaultPlan
  /-- Loans that seem to have no planned schedule. -/
  withoutPlanned : List LoanId
  /-- How often the terms of each loan were read. -/
  loads : List (LoanId × Nat)
  /-- How many batches were asked for. -/
  batches : Nat

namespace Faulty

def ofStore (s : σ) (plan : FaultPlan) (withoutPlanned : List LoanId) : Faulty σ :=
  ⟨s, plan, withoutPlanned, [], 0⟩

/-- End with the fault that the plan has for a call, if it has one. -/
def meet (site : Site) (loan : Option LoanId) : Act (Faulty σ) Unit :=
  Act.ofExec fun s =>
    let (fault, plan) := s.plan.call site loan
    let s := { s with plan }
    match fault with
    | some f => (.error f, s)
    | none => (.ok (), s)

def onInner (a : Act σ α) : Act (Faulty σ) α :=
  a.zoom (·.inner) fun inner s => { s with inner }

/-- One more load of a loan. -/
def countLoad (loan : LoanId) : List (LoanId × Nat) → List (LoanId × Nat)
  | [] => [(loan, 1)]
  | (l, n) :: rest => if l = loan then (l, n + 1) :: rest else (l, n) :: countLoad loan rest

instance [Connections σ] : Connections (Faulty σ) where
  connect := do
    meet .connect none
    onInner Connections.connect

instance [BookAccess σ] : BookAccess (Faulty σ) where
  candidates after pageSize today := do
    meet .fetch none
    onInner (BookAccess.candidates after pageSize today)
  plannedInstallments loan := do
    meet .planned (some loan)
    if loan ∈ (← get).withoutPlanned then return []
    onInner (BookAccess.plannedInstallments loan)
  liveInstallments loan := do
    meet .live (some loan)
    onInner (BookAccess.liveInstallments loan)
  consumption loan := do
    meet .consumption (some loan)
    onInner (BookAccess.consumption loan)
  terms loan := do
    modify fun s => { s with loads := countLoad loan s.loads }
    meet .terms (some loan)
    onInner (BookAccess.terms loan)

instance [ArrearsAccess σ] : ArrearsAccess (Faulty σ) where
  reset := do
    meet .reset none
    onInner ArrearsAccess.reset
  bulkInsert today := do
    meet .bulk none
    onInner (ArrearsAccess.bulkInsert today)
  writeBatch writes := do
    modify fun s => { s with batches := s.batches + 1 }
    writes.forM fun w => meet .batch (some w.loan)
    onInner (ArrearsAccess.writeBatch writes)
  write w := do
    meet .write (some w.loan)
    onInner (ArrearsAccess.write w)

end Faulty

end LoanArrears
