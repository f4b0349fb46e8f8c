-- SUMMARY: Retrying transient failures with random delays.
import LoanArrears.Act
import LoanArrears.Random.Jitter

/-!
# Retries

Only transient errors are worth another attempt, and only a limited number of
times. Before each one there is a delay: a fixed part and a random part drawn
from the stream of the caller. An error that stays transient to the end is
reported as exhausted.
-/

namespace LoanArrears

structure RetryPolicy where
  /-- Retries behind the first attempt. -/
  maxRetries : Nat
  /-- The fixed part of a delay, in milliseconds. -/
  baseDelay : Nat
  /-- The largest random part, in seconds. -/
  maxInterval : Nat
deriving DecidableEq

namespace RetryPolicy

def standard : RetryPolicy :=
  ⟨3, 1000, 5⟩

/-- Without delays. -/
def immediate (maxRetries : Nat) : RetryPolicy :=
  ⟨maxRetries, 0, 0⟩

/-- Delays and windows stop at the largest number of 64 bits. -/
def clamp (n : Nat) : Nat :=
  min n (Bound.nat64 - 1)

/-- A delay in milliseconds. -/
def backoff (p : RetryPolicy) (s : JitterStream) : Nat × JitterStream :=
  let window := clamp (clamp (p.maxInterval * 1000) + 1)
  let (jitter, s) := s.below window
  (clamp (p.baseDelay + jitter), s)

/-- `count` delays in a row. -/
def backoffs (p : RetryPolicy) : Nat → JitterStream → List Nat × JitterStream
  | 0, s => ([], s)
  | count + 1, s =>
    let (delay, s) := p.backoff s
    let (rest, s) := p.backoffs count s
    (delay :: rest, s)

end RetryPolicy

/-- How the attempts ended, and the delays between them. -/
structure RetryResult (α : Type) where
  outcome : Except Error α
  delays : List Nat
  stream : JitterStream

def RetryResult.retries (r : RetryResult α) : Nat :=
  r.delays.length

/-- Try until there is an answer, an error that is not transient, or no retry
    left. -/
def retryFrom (policy : RetryPolicy) (act : Act σ α) (delays : List Nat) (stream : JitterStream) :
    Nat → Act σ (RetryResult α)
  | 0 => do
    match ← act.attempt with
    | .ok a => return ⟨.ok a, delays, stream⟩
    | .error e =>
      let last := if e.isTransient then .retriesExhausted (delays.length + 1) e else e
      return ⟨.error last, delays, stream⟩
  | left + 1 => do
    match ← act.attempt with
    | .ok a => return ⟨.ok a, delays, stream⟩
    | .error e =>
      if e.isTransient then
        let (delay, stream) := policy.backoff stream
        retryFrom policy act (delay :: delays) stream left
      else return ⟨.error e, delays, stream⟩

def retry (policy : RetryPolicy) (stream : JitterStream) (act : Act σ α) : Act σ (RetryResult α) :=
  retryFrom policy act [] stream policy.maxRetries

end LoanArrears
