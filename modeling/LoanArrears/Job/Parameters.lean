-- SUMMARY: The parameters of a full recompute.
import LoanArrears.Retry

/-!
# Job parameters

A job needs at least one worker and batches of at least one loan. A page holds
one full batch for every worker.
-/

namespace LoanArrears

structure JobParameters where
  workers : Nat
  batchSize : Nat
  retry : RetryPolicy
  jitterSeed : Nat
deriving DecidableEq

namespace JobParameters

def standard : JobParameters :=
  ⟨4, 100, .standard, 0⟩

/-- Two workers, small batches, and retries without delay. -/
def small : JobParameters :=
  ⟨2, 2, .immediate 3, 42⟩

def validate (c : JobParameters) : Except Error Unit :=
  if c.workers = 0 then .error (.invalidParameter "thread_pool_size" "0")
  else if c.batchSize = 0 then .error (.invalidParameter "batch_size" "0")
  else .ok ()

/-- Ids in a page, up to the largest number of 64 bits. -/
def pageSize (c : JobParameters) : Nat :=
  RetryPolicy.clamp (c.batchSize * c.workers)

end JobParameters

end LoanArrears
