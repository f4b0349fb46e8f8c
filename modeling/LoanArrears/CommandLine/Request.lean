-- SUMMARY: What the arguments of a command ask for, and the plan that they come to with the date and the job parameters.
import LoanArrears.CommandLine.Failure

/-!
# Requests

A flag takes the argument behind it; of several flags of one name the first
counts. A number that cannot be read is passed over.

The plan of a command has the parameters of the parameter file, or the standard
ones, where the arguments have none.
-/

namespace LoanArrears.CommandLine

/-! ## Arguments -/

/-- The argument behind the first `flag`. -/
def valueOf (flag : String) : List String → Option String
  | a :: b :: rest => if a = flag then some b else valueOf flag (b :: rest)
  | _ => none

/-- The number behind the first `flag`. -/
def numberOf (flag : String) (limit : Nat) (args : List String) : Option Nat := do
  let text ← valueOf flag args
  Text.readBelow? limit text.toList

structure Request where
  database : String
  dataDirectory : Option String
  date : Option String
  /-- The result is printed as JSON. -/
  json : Bool
  workers : Option Nat
  batchSize : Option Nat
  maxRetries : Option Nat
  syntheticLoans : Option Nat
  seed : Option Nat
  events : Option String
deriving DecidableEq

namespace Request

def ofArgs (args : List String) : Request where
  database := (valueOf "--db" args).getD "arrears.db"
  dataDirectory := valueOf "--data-dir" args
  date := valueOf "--business-date" args
  json := "--json" ∈ args
  workers := numberOf "--threads" Bound.nat64 args
  batchSize := numberOf "--batch-size" Bound.nat64 args
  maxRetries := numberOf "--max-retries" Bound.nat32 args
  syntheticLoans := numberOf "--demo-loans" Bound.nat64 args
  seed := numberOf "--seed" Bound.nat64 args
  events := valueOf "--events" args

end Request

/-! ## Plans -/

structure Plan where
  database : String
  today : Date
  json : Bool
  parameters : JobParameters
  /-- Loans to be drawn if the book is empty, and their seed. -/
  syntheticLoans : Nat
  seed : Nat
  events : Option String

/-- The seed of a synthetic book if none is given. -/
def standardSeed : Nat := 42

namespace Request

def businessDate (r : Request) (today : Date) : Except Failure Date :=
  match r.date with
  | some text => (Date.readStrict text).mapError (.badDate text)
  | none => .ok today

def baseParameters (r : Request) (readText : String → Except ReadFailure String) :
    Except Failure JobParameters :=
  match r.dataDirectory with
  | some directory =>
    let path := JobParameters.path directory
    (JobParameters.load path ((readText path).mapError (·.reason))).mapError .badParameters
  | none => .ok .standard

/-- The plan of a request, made on the day `today`. -/
def plan (r : Request) (today : Date) (readText : String → Except ReadFailure String) :
    Except Failure Plan := do
  let date ← r.businessDate today
  let base ← r.baseParameters readText
  return {
    database := r.database, today := date, json := r.json
    parameters := { base with
      workers := r.workers.getD base.workers
      batchSize := r.batchSize.getD base.batchSize
      retry := { base.retry with maxRetries := r.maxRetries.getD base.retry.maxRetries } }
    syntheticLoans := r.syntheticLoans.getD 0, seed := r.seed.getD standardSeed
    events := r.events }

end Request

/-- What is printed before a plan is carried out. -/
def Plan.header (p : Plan) : List String :=
  ["arrears-runner: loan arrears aging recompute",
   "  db:            " ++ p.database,
   "  business date: " ++ p.today.toText,
   "  threads:       " ++ toString p.parameters.workers,
   "  batch size:    " ++ toString p.parameters.batchSize,
   "  max retries:   " ++ toString p.parameters.retry.maxRetries,
   ""]

end LoanArrears.CommandLine
