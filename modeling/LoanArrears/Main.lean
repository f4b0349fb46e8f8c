-- SUMMARY: The program: reading arguments and files, carrying out the plan, and printing its end.
import LoanArrears.CommandLine.Run
import LoanArrears.Format.Store
import Std.Time.DateTime.Timestamp

/-!
# The program

A database is a file with the tables of a store; it is written back when the
plan was carried out. The business date is today if none is given.
-/

namespace LoanArrears

open CommandLine

/-- Seconds in a day. -/
def daySeconds : Int := 86400

/-- The day that the clock shows, in universal time. -/
def clockDate : IO Date := do
  let now ← Std.Time.Timestamp.now
  let epoch := Civil.dayNumber ⟨1970, 1, 1⟩
  match Date.ofNumber? (epoch + now.toSecondsSinceUnixEpoch.val / daySeconds) with
  | some today => return today
  | none => throw (IO.userError "the clock is out of range")

/-- The reason of a failure, as the operating system puts it. -/
def osReason : IO.Error → String
  | .noFileOrDirectory .. => "No such file or directory (os error 2)"
  | .permissionDenied .. => "Permission denied (os error 13)"
  | .inappropriateType .. => "Is a directory (os error 21)"
  | .userError _ => "stream did not contain valid UTF-8"
  | e => toString e

def readFile (path : String) : IO (Except ReadFailure String) := do
  try return .ok (← IO.FS.readFile path)
  catch e =>
    match e with
    | .noFileOrDirectory .. | .permissionDenied .. => return .error (.opening (osReason e))
    | _ => return .error (.reading (osReason e))

/-- The store in a file; one that is not there may be made. -/
def openFile (name path : String) (creates : Bool) : IO (Except Error Store) := do
  let closed := .error (Database.cannotOpen name)
  try
    let bytes ← IO.FS.readBinFile path
    match (String.fromUTF8? bytes).bind Store.ofText? with
    | some s => return .ok s
    | none => return .error Database.notADatabase
  catch
    | .noFileOrDirectory .. =>
      try
        if creates then
          IO.FS.writeFile path ""
          return .ok .unmigrated
        else return closed
      catch _ => return closed
    | _ => return closed

def openStore (name : String) (d : Database) : IO (Except Error Store) :=
  match d.place with
  | .file path => openFile name path (d.access = .create)
  | .memory _ => return .ok .unmigrated

def closeStore (d : Database) (s : Store) : IO Unit :=
  match d.place with
  | .file path => if d.readOnly then return () else IO.FS.writeFile path s.toText
  | .memory _ => return ()

/-- A name for a run. -/
def newRunId : IO String := do
  let bytes ← IO.getRandomBytes 16
  let digits := bytes.toList.flatMap fun b =>
    [Nat.digitChar (b.toNat / 16), Nat.digitChar (b.toNat % 16)]
  return String.ofList digits

def printFailure (f : Failure) : IO Unit := do
  IO.eprintln ("Error: " ++ f.message)
  match f.cause with
  | some cause => IO.eprintln ("\nCaused by:\n    " ++ cause)
  | none => return ()

def printSummary (p : Plan) (s : Summary) (stamp : Stamp) : IO Unit := do
  if p.json then IO.println (s.toJson stamp).renderIndented
  else (s.lines stamp).forM fun line => IO.println line

/-- Carry out a plan on an open store; answers the exit code. -/
def carryOut (p : Plan) (d : Database) (s : Store) : IO UInt32 := do
  let events ← match p.events with
    | some path => readFile path
    | none => pure (.ok "")
  let started ← IO.monoMsNow
  let (ending, s) := p.run d (fun _ => events) s
  closeStore d s
  let elapsed := (← IO.monoMsNow) - started
  match ending with
  | .finished summary => printSummary p summary ⟨← newRunId, elapsed⟩
  | .failed f => printFailure f
  | .crashed c => IO.eprintln c.message
  return ending.exitCode.toUInt32

/-- Open the database of a plan and carry out the plan; answers the exit code. -/
def start (p : Plan) : IO UInt32 := do
  if !p.json then p.header.forM fun line => IO.println line
  let refuse (e : Error) : IO UInt32 := do
    printFailure (.failed e)
    return 1
  match Database.ofName p.database with
  | .error e => refuse e.toError
  | .ok d =>
    match ← openStore p.database d with
    | .error e => refuse e
    | .ok s => carryOut p d s

end LoanArrears

open LoanArrears CommandLine in
def main (args : List String) : IO UInt32 := do
  let request := Request.ofArgs args
  let today ← clockDate
  let text ← match request.dataDirectory with
    | some directory => readFile (JobParameters.path directory)
    | none => pure (.ok "")
  match request.plan today fun _ => text with
  | .ok plan => start plan
  | .error f =>
    printFailure f
    return 1
