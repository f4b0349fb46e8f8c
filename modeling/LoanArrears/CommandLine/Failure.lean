-- SUMMARY: Why a command ends without a result, with the message and the cause that are shown.
import LoanArrears.Format.Event
import LoanArrears.Format.Job

/-!
# Failures of a command

A failure is shown as a message, and below it the cause if there is one. The
cause of a failed event or of an unreadable date is the error itself; a database
error has the text of the database as its cause.
-/

namespace LoanArrears.CommandLine

/-- Why a file has no text: it cannot be opened, or it cannot be read. -/
inductive ReadFailure where
  | opening (reason : String)
  | reading (reason : String)
deriving DecidableEq

def ReadFailure.reason : ReadFailure → String
  | .opening reason | .reading reason => reason

inductive Failure where
  | badDate (text : String) (e : DateError)
  | badParameters (e : JobParameters.LoadError)
  | failed (e : Error)
  | unreadableEvents (path : String) (f : ReadFailure)
  | badEvent (path : String) (line : Nat) (e : DecodeError)
  | refusedEvent (path : String) (line : Nat) (event : LoanEvent) (e : Error)

namespace Failure

def atLine (path : String) (line : Nat) : String :=
  path ++ ":" ++ toString line ++ ": "

def message : Failure → String
  | .badDate text _ => "--business-date expects YYYY-MM-DD, got " ++ text
  | .badParameters e => e.message
  | .failed e => e.message
  | .unreadableEvents path (.opening _) => "Cannot read " ++ path
  | .unreadableEvents _ (.reading reason) => reason
  | .badEvent path line e => atLine path line ++ "invalid event: " ++ e.message
  | .refusedEvent path line event _ =>
    atLine path line ++ event.kind.name ++ " for loan " ++ toString event.loan

/-- The cause of an error that stands for another one. -/
def causeOf : Error → Option String
  | .database e => some e.message
  | .serialization e => some e.message
  | _ => none

def cause : Failure → Option String
  | .badDate _ e => some e.message
  | .failed e => causeOf e
  | .unreadableEvents _ (.opening reason) => some reason
  | .refusedEvent _ _ _ e => some e.message
  | .badParameters _ | .unreadableEvents _ (.reading _) | .badEvent .. => none

end Failure

end LoanArrears.CommandLine
