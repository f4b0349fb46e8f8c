import LoanArrears.Cents
import LoanArrears.Decimal.Basic
import LoanArrears.Decimal.Text
import LoanArrears.Text.Blank
import LoanArrears.Text.Numeral
import LoanArrears.Json.Value
import LoanArrears.Json.Reader
import LoanArrears.Json.Writer
import LoanArrears.Json.Decode
import LoanArrears.Calendar.Cutoff
import LoanArrears.Status
import LoanArrears.Error
import LoanArrears.Arrears.Write
import LoanArrears.Event
import LoanArrears.Job.Parameters
import LoanArrears.Job.SubBatch
import LoanArrears.Book.Row
import LoanArrears.Book.Stored
import LoanArrears.Book.Table
import LoanArrears.Book.Arrears
import LoanArrears.Recompute
import LoanArrears.Store.Basic
import LoanArrears.Store.Session
import LoanArrears.Store.Faults
import LoanArrears.Format.Amount
import LoanArrears.Format.Schedule
import LoanArrears.Format.Arrears
import LoanArrears.Format.Book
import LoanArrears.Format.Event
import LoanArrears.Format.Job
import LoanArrears.Job.Pager
import LoanArrears.Job.Posting
import LoanArrears.Job.Report
import LoanArrears.Job.Run
import LoanArrears.Subscription
import LoanArrears.Format.Report
import LoanArrears.Synthetic.Loan
import LoanArrears.Synthetic.Book
import LoanArrears.Text.Cut
import LoanArrears.CommandLine.Directory
import LoanArrears.Main
import LoanArrears.Proofs.Job.Abort
import LoanArrears.Proofs.Job.Agreement
import LoanArrears.Proofs.Job.Balance
import LoanArrears.Proofs.Job.BulkPass
import LoanArrears.Proofs.Job.Candidates
import LoanArrears.Proofs.Job.Draws
import LoanArrears.Proofs.Job.LiveRows
import LoanArrears.Proofs.Job.MovingBook
import LoanArrears.Proofs.Job.Partition
import LoanArrears.Proofs.Job.Reached
import LoanArrears.Proofs.Job.RepeatedIds
import LoanArrears.Proofs.Job.Turns
import LoanArrears.Proofs.Book.Ledgers
import LoanArrears.Proofs.Book.Loading
import LoanArrears.Proofs.Schedule.ClosedForm
import LoanArrears.Proofs.Subscription.Coherence
import LoanArrears.Proofs.Subscription.Overlap
import LoanArrears.Proofs.Subscription.Reordering
import LoanArrears.Proofs.Store.Batch
import LoanArrears.Proofs.Store.Recomputing
import LoanArrears.Proofs.Calendar.TextTest
import LoanArrears.Proofs.Decimal.Nearest
import LoanArrears.Proofs.Arrears.Dated
import LoanArrears.Proofs.CommandLine.Replay
import LoanArrears.Proofs.Format.RoundTrip
import LoanArrears.Proofs.Random.Seeds
import LoanArrears.Proofs.Synthetic.Aging
