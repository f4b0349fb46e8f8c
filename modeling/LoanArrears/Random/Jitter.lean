-- SUMMARY: Named streams of random numbers, one for each worker of a job, derived from the seed of the job.
import LoanArrears.Random.Generator

/-!
# Jitter streams

Delays are drawn from seeded streams only. Every worker has a stream of its own;
its seed is the seed of the job, mixed with the index of the worker.
-/

namespace LoanArrears

structure JitterStream where
  name : String
  generator : Generator
deriving DecidableEq

namespace JitterStream

/-- The odd number whose multiples set streams apart. -/
def stride : Nat := 0x9e3779b97f4a7c15

/-- The seed of a stream. -/
def seedOf (jobSeed index : Nat) : Nat :=
  jobSeed ^^^ Generator.low 64 (index * stride)

def new (jobSeed index : Nat) : JitterStream where
  name := "stream-" ++ toString index
  generator := Generator.ofSeed (seedOf jobSeed index)

def named (name : String) (s : JitterStream) : JitterStream :=
  { s with name }

/-- The stream of a worker. -/
def ofWorker (jobSeed worker : Nat) : JitterStream :=
  (new jobSeed worker).named ("arrears-worker-" ++ toString worker)

/-- A number below `n`; for zero it is zero, and nothing is drawn. -/
def below (n : Nat) (s : JitterStream) : Nat × JitterStream :=
  if n = 0 then (0, s)
  else
    let (v, generator) := s.generator.next64
    (v % n, { s with generator })

/-- `count` draws, each below a bound. -/
def draws : List Nat → JitterStream → List Nat × JitterStream
  | [], s => ([], s)
  | n :: rest, s =>
    let (v, s) := s.below n
    let (vs, s) := draws rest s
    (v :: vs, s)

theorem below_lt {n : Nat} (h : 0 < n) (s : JitterStream) : (s.below n).1 < n := by
  simp only [below, Nat.ne_of_gt h, if_false]
  exact Nat.mod_lt _ h

end JitterStream

end LoanArrears
