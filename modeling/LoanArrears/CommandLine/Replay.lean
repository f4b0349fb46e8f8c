-- SUMMARY: Delivering the events of a text, one a line and each in a transaction of its own.
import LoanArrears.CommandLine.Failure
import LoanArrears.Subscription

/-!
# Replaying events

A file of events has one on each line that is not blank. The events are
delivered in order; the first line that is no event, or whose event a listener
refuses, ends the replay. What was delivered before it stays.
-/

namespace LoanArrears.CommandLine

/-- The lines of a text. A line ends at a newline, or at a carriage return with a
    newline behind it, and at the end of the text, where no empty one follows. -/
def lines : List Char → List (List Char)
  | [] => []
  | '\n' :: rest | '\r' :: '\n' :: rest => [] :: lines rest
  | c :: rest =>
    match lines rest with
    | [] => [[c]]
    | line :: others => (c :: line) :: others

def isBlankLine (line : List Char) : Bool :=
  line.all Text.isBlank

/-- Deliver the events of some lines, of which the first has the given number.
    Answers how many events there were, those before included. -/
def replayLines [Transactions σ] (t : Subscriptions σ) (path : String) (number replayed : Nat) :
    List (List Char) → Act σ (Except Failure Nat)
  | [] => return .ok replayed
  | line :: rest => do
    if isBlankLine line then replayLines t path (number + 1) replayed rest
    else
      match LoanEvent.decoder.ofText (String.ofList line) with
      | .error e => return .error (.badEvent path number e)
      | .ok event =>
        match ← Act.attempt (Transactions.atomically (t.deliver event)) with
        | .ok _ => replayLines t path (number + 1) (replayed + 1) rest
        | .error e => return .error (.refusedEvent path number event e)

def replay [Transactions σ] (t : Subscriptions σ) (path : String)
    (text : Except ReadFailure String) : Act σ (Except Failure Nat) :=
  match text with
  | .ok text => replayLines t path 1 0 (lines text.toList)
  | .error f => return .error (.unreadableEvents path f)

end LoanArrears.CommandLine
