-- SUMMARY: Carrying out a plan on a store: migration, a synthetic book, the full recompute, and the replay of events.
import LoanArrears.CommandLine.Database
import LoanArrears.CommandLine.Replay
import LoanArrears.CommandLine.Request
import LoanArrears.CommandLine.Summary
import LoanArrears.Job.Run
import LoanArrears.Synthetic.Book

/-!
# Carrying out a plan

The store is migrated, and filled with a synthetic book if one is asked for and
there are no loans. Then come the full recompute and the events. A recompute of
which sub-batches failed still counts as a result.

The job opens its own connections. It finds no tables in a database that belongs
to one connection only. A database that can only be read refuses the first
statement that would change it.
-/

namespace LoanArrears.CommandLine

inductive Ending where
  | finished (s : Summary)
  | failed (f : Failure)
  | crashed (c : Crash)

/-- The exit code of the program. -/
def Ending.exitCode : Ending → Nat
  | .finished s => if s.report.succeeded then 0 else 1
  | .failed _ => 1
  | .crashed _ => 101

namespace Plan

/-- The database has to be one that can be changed. -/
def needWritable (d : Database) : Act Store Unit :=
  if d.readOnly then Act.fail Database.notWritable else return ()

def prepare (p : Plan) (d : Database) : Act Store Unit := do
  if (← get).tables.isNone then needWritable d
  Store.migrate
  if 0 < p.syntheticLoans then
    if (← Store.loanCount) = 0 then
      needWritable d
      discard <| Synthetic.fill p.syntheticLoans p.seed p.today

/-- The run of a job clears the arrears first, so it has to be able to write. -/
def recompute (p : Plan) (d : Database) : Act Store RunReport :=
  Act.ofExec fun s =>
    match Job.new p.parameters p.today (if d.isPrivate then Store.unmigrated else s) with
    | .ok job =>
      if d.readOnly then (.error (.error Database.notWritable), s)
      else
        let (r, job) := Job.run.exec job
        (r, if d.isPrivate then s else job.store)
    | .error e => (.error (.error e), s)

/-- An error ends the command. -/
def orFail (a : Act Store α) : ExceptT Failure (Act Store) α :=
  ExceptT.mk do return (← a.attempt).mapError .failed

def replayEvents (p : Plan) (readText : String → Except ReadFailure String) :
    Act Store (Except Failure Nat) :=
  match p.events with
  | some path => replay (.standard fun _ => p.today) path (readText path)
  | none => return .ok 0

def steps (p : Plan) (d : Database) (readText : String → Except ReadFailure String) :
    ExceptT Failure (Act Store) Summary := do
  orFail (p.prepare d)
  let report ← orFail (p.recompute d)
  let replayed ← ExceptT.mk (p.replayEvents readText)
  let rows ← orFail Store.rowCount
  let activeLoans ← orFail Store.activeCount
  return { report, activeLoans, replayed, rows }

/-- Carry out a plan on the store of its database; answers its end and the store
    left behind. -/
def run (p : Plan) (d : Database) (readText : String → Except ReadFailure String) (s : Store) :
    Ending × Store :=
  match (p.steps d readText).run.exec s with
  | (.ok (.ok summary), s) => (.finished summary, s)
  | (.ok (.error f), s) => (.failed f, s)
  | (.error (.error e), s) => (.failed (.failed e), s)
  | (.error (.crash c), s) => (.crashed c, s)

end Plan

end LoanArrears.CommandLine
