-- SUMMARY: The exact law of retries and of the draws they take, for one act and over the posting of a sub-batch.
import LoanArrears.Proofs.Job.Accounts
import LoanArrears.Proofs.Retry

/-!
# Draws of a posting

The calls of a posting go on with one stream, each from where the call before it left the stream.
So what a posting draws is what its retries sum up to: those of its reads, of its batch and of its
single writes.
-/

namespace LoanArrears

theorem CallsMade.stream_eq {policy : RetryPolicy} {act : α → Act σ β} {s s' : σ}
    {stream stream' : JitterStream} {items : List α} {calls : List (Call α β)}
    (h : CallsMade policy act s stream items calls s' stream') :
    stream' = stream.skip (retriesOf calls) := by
  induction h with
  | done => rfl
  | failed hcall hfailure =>
    rw [retriesOf_cons, retriesOf_nil]
    exact (drawn_retry hcall).stream_eq
  | next hcall hgoes hrest ih =>
    rw [retriesOf_cons, ← JitterStream.skip_skip, ← (drawn_retry hcall).stream_eq]
    exact ih

/-- The stream behind a posting is as many draws on as the account has retries. -/
theorem Account.Happened.stream_eq [BookAccess σ] [ArrearsAccess σ] {policy : RetryPolicy}
    {today : Date} {loans : List LoanId} {s s' : σ} {stream stream' : JitterStream} {a : Account}
    (h : a.Happened policy today loans s stream s' stream') :
    stream' = stream.skip a.retries := by
  cases h with
  | unwritten hreads hstops => exact hreads.stream_eq
  | atOnce hreads hgoes hwrites hbatch hends =>
    rw [(drawn_retry hbatch).stream_eq, hreads.stream_eq, JitterStream.skip_skip]
    rfl
  | oneByOne hreads hgoes hwrites hbatch hrefused hsingles =>
    rw [hsingles.stream_eq, (drawn_retry hbatch).stream_eq, hreads.stream_eq,
      JitterStream.skip_skip, JitterStream.skip_skip, ← Nat.add_assoc]
    rfl

end LoanArrears
