-- SUMMARY: The JSON forms of retry policies and job parameters, and loading the parameters from their file.
import LoanArrears.Job.Parameters
import LoanArrears.Json.Decode

/-!
# Job parameters in JSON

A missing retry policy is the standard one, and a missing seed is zero. The
parameters are kept in one file of the data directory; `JobParameters.load` says why
a file cannot be used.
-/

namespace LoanArrears

namespace RetryPolicy

def decoder : Decoder RetryPolicy :=
  .record <| mk <$> .required "max_retries" Decoder.nat32
    <*> .required "base_delay_ms" Decoder.nat64 <*> .required "max_interval_seconds" Decoder.nat64

def toJson (p : RetryPolicy) : Json :=
  .obj [("max_retries", .nat p.maxRetries), ("base_delay_ms", .nat p.baseDelay),
    ("max_interval_seconds", .nat p.maxInterval)]

end RetryPolicy

namespace JobParameters

def decoder : Decoder JobParameters :=
  .record <| mk <$> .required "thread_pool_size" Decoder.nat64
    <*> .required "batch_size" Decoder.nat64
    <*> .withDefault "retry" RetryPolicy.decoder .standard
    <*> .withDefault "jitter_seed" Decoder.nat64 0

def toJson (c : JobParameters) : Json :=
  .obj [("thread_pool_size", .nat c.workers), ("batch_size", .nat c.batchSize),
    ("retry", c.retry.toJson), ("jitter_seed", .nat c.jitterSeed)]

/-! ## The parameter file -/

/-- The file of the parameters in a data directory. -/
def path (directory : String) : String :=
  directory ++ "/arrears/arrears_job.json"

inductive LoadError where
  | unreadable (path reason : String)
  | unparsable (path : String) (e : DecodeError)
  | invalid (e : Error)

def LoadError.message : LoadError → String
  | .unreadable path reason => "Cannot read " ++ path ++ ": " ++ reason
  | .unparsable path e => "Cannot parse " ++ path ++ ": " ++ e.message
  | .invalid e => e.message

/-- The parameters in the text of a file, or the reason why there is no text. -/
def load (path : String) (content : Except String String) : Except LoadError JobParameters := do
  let text ← content.mapError (.unreadable path)
  let config ← (Decoder.ofText decoder text).mapError (.unparsable path)
  config.validate.mapError .invalid
  return config

end JobParameters

end LoanArrears
