-- SUMMARY: What can go wrong with a loan, a table or a job, how each cause is classed, and its message.
import LoanArrears.Buckets
import LoanArrears.Calendar.Text
import LoanArrears.Json.Decode

/-!
# Errors

`Error` lists the causes, and `Error.class` says what a caller does about one:
a transient error is worth another attempt, a data error concerns one loan only,
and any other is fatal. A `Fault` is an error or a crash.
-/

namespace LoanArrears

abbrev LoanId : Type := Int

inductive ErrorClass where
  /-- Worth another attempt. -/
  | transient
  /-- Bad data of a single loan. -/
  | data
  | fatal
deriving DecidableEq

/-! ## Tables -/

/-- A failure of the tables. -/
inductive DatabaseError where
  /-- A statement failed with a result code; the low eight bits are its primary code. -/
  | failure (code : Int) (text : Option String)
  | conversion (index : Nat) (reason : String)
  | integerOutOfRange (index : Nat) (value : Int)
  | columnType (index : Nat) (column : String) (found : String)
  | noRows
  | notReadOnly
deriving DecidableEq

namespace DatabaseError

def primaryCode (code : Int) : Int :=
  code % 256

/-- Another connection holds the database or the table, respectively. -/
def busy : Int := 5
def locked : Int := 6

/-- A constraint is violated, or a value has the wrong type. -/
def constraint : Int := 19
def mismatch : Int := 20

/-- A statement that cannot be run, an access that is not permitted, and a change
    of what can only be read. -/
def statement : Int := 1
def permission : Int := 3
def readOnly : Int := 8

/-- A disk that cannot be read, a file that cannot be opened, and one of another
    kind. -/
def disk : Int := 10
def cannotOpen : Int := 14
def notDatabase : Int := 26

/-- What primary result codes stand for. -/
def primaryTexts : List (Int × String) :=
  [(0, "Successful result"), (1, "SQL error or missing database"),
   (2, "Internal logic error in SQLite"), (3, "Access permission denied"),
   (4, "Callback routine requested an abort"), (5, "The database file is locked"),
   (6, "A table in the database is locked"), (7, "A malloc() failed"),
   (8, "Attempt to write a readonly database"),
   (9, "Operation terminated by sqlite3_interrupt()"),
   (10, "Some kind of disk I/O error occurred"), (11, "The database disk image is malformed"),
   (12, "Unknown opcode in sqlite3_file_control()"),
   (13, "Insertion failed because database is full"), (14, "Unable to open the database file"),
   (15, "Database lock protocol error"), (16, "Database is empty"),
   (17, "The database schema changed"), (18, "String or BLOB exceeds size limit"),
   (19, "Abort due to constraint violation"), (20, "Data type mismatch"),
   (21, "Library used incorrectly"), (22, "Uses OS features not supported on host"),
   (23, "Authorization denied"), (24, "Auxiliary database format error"),
   (25, "2nd parameter to sqlite3_bind out of range"),
   (26, "File opened that is not a database file"), (27, "Notifications from sqlite3_log()"),
   (28, "Warnings from sqlite3_log()"), (100, "sqlite3_step() has another row ready"),
   (101, "sqlite3_step() has finished executing")]

/-- What the details of a primary code stand for, in the order of their numbers
    from 1 on. -/
def detailTexts : List (Int × List String) :=
  [(1, ["SQLITE_ERROR_MISSING_COLLSEQ", "SQLITE_ERROR_RETRY", "SQLITE_ERROR_SNAPSHOT"]),
   (4, ["Unknown error code", "Transaction was rolled back"]),
   (5, ["Another process is recovering a WAL mode database file",
     "Cannot promote read transaction to write transaction " ++
       "because of writes by another connection",
     "SQLITE_BUSY_TIMEOUT"]),
   (6, ["Locking conflict due to another connection with a shared cache", "SQLITE_LOCKED_VTAB"]),
   (8, ["WAL mode database file needs recovery (requires write access)",
     "Shared-memory file associated with WAL mode database is read-only",
     "Database has hot journal that must be rolled back (requires write access)",
     "Database cannot be modified because database file has moved",
     "SQLITE_READONLY_CANTINIT", "SQLITE_READONLY_DIRECTORY"]),
   (10, ["Error reading from disk",
     "Unable to obtain number of requested bytes (file truncated?)",
     "Error writing to disk", "Error flushing data to persistent storage (fsync)",
     "Error calling fsync on a directory", "Error attempting to truncate file",
     "Error invoking fstat to get file metadata", "I/O error within xUnlock of a VFS object",
     "I/O error within xLock of a VFS object (trying to obtain a read lock)",
     "I/O error within xDelete of a VFS object", "SQLITE_IOERR_BLOCKED",
     "Out of memory in I/O layer", "I/O error within xAccess of a VFS object",
     "I/O error within then xCheckReservedLock method",
     "I/O error in the advisory file locking layer", "I/O error within the xClose method",
     "SQLITE_IOERR_DIR_CLOSE",
     "I/O error within the xShmMap method (trying to open a new shared-memory segment)",
     "I/O error within the xShmMap method (trying to resize an existing shared-memory segment)",
     "SQLITE_IOERR_SHMLOCK",
     "I/O error within the xShmMap method " ++
       "(trying to map a shared-memory segment into process address space)",
     "I/O error within the xRead or xWrite (trying to seek within a file)",
     "File being deleted does not exist",
     "I/O error while trying to map or unmap part of the database file " ++
       "into process address space",
     "VFS is unable to determine a suitable directory for temporary files",
     "cygwin_conv_path() system call failed", "SQLITE_IOERR_VNODE", "SQLITE_IOERR_AUTH",
     "SQLITE_IOERR_BEGIN_ATOMIC", "SQLITE_IOERR_COMMIT_ATOMIC",
     "SQLITE_IOERR_ROLLBACK_ATOMIC", "SQLITE_IOERR_DATA", "SQLITE_IOERR_CORRUPTFS",
     "SQLITE_IOERR_IN_PAGE"]),
   (11, ["Content in the virtual table is corrupt", "SQLITE_CORRUPT_SEQUENCE",
     "SQLITE_CORRUPT_INDEX"]),
   (14, ["SQLITE_CANTOPEN_NOTEMPDIR", "Attempted to open directory as file",
     "Unable to convert filename into full pathname", "cygwin_conv_path() system call failed",
     "Unknown error code", "SQLITE_CANTOPEN_SYMLINK"]),
   (19, ["A CHECK constraint failed", "Commit hook caused rollback",
     "Foreign key constraint failed", "Error returned from extension function",
     "A NOT NULL constraint failed", "A PRIMARY KEY constraint failed",
     "A RAISE function within a trigger fired", "A UNIQUE constraint failed",
     "An application-defined virtual table error occurred", "A non-unique rowid occurred",
     "SQLITE_CONSTRAINT_PINNED", "SQLITE_CONSTRAINT_DATATYPE"]),
   (23, ["SQLITE_AUTH_USER"]),
   (27, ["A WAL mode database file was recovered", "Hot journal was rolled back"]),
   (28, ["Automatic indexing used - database might benefit from additional indexes"])]

/-- What a result code stands for. A code of 256 or more is a detail, in the
    higher bits, of a primary one. -/
def codeText? (code : Int) : Option String :=
  if code < 256 then primaryTexts.lookup code
  else do
    let details ← detailTexts.lookup (primaryCode code)
    details[(code / 256 - 1).toNat]?

def codeText (code : Int) : String :=
  (codeText? code).getD "Unknown error code"

def message : DatabaseError → String
  | .failure _ (some text) => text
  | .failure code none => "Error code " ++ toString code ++ ": " ++ codeText code
  | .conversion index reason =>
    "Conversion error from type Text at index: " ++ toString index ++ ", " ++ reason
  | .integerOutOfRange index value =>
    "Integer " ++ toString value ++ " out of range at index " ++ toString index
  | .columnType index column found =>
    "Invalid column type " ++ found ++ " at index: " ++ toString index ++ ", name: " ++ column
  | .noRows => "Query returned no rows"
  | .notReadOnly => "Query is not read-only"

def «class» : DatabaseError → ErrorClass
  | .failure code _ =>
    let code := primaryCode code
    if code = busy ∨ code = locked then .transient
    else if code = constraint ∨ code = mismatch then .data
    else .fatal
  | .conversion .. | .integerOutOfRange .. | .columnType .. | .noRows => .data
  | .notReadOnly => .fatal

end DatabaseError

/-! ## Loans and jobs -/

/-- Why the data of a loan cannot be used. -/
inductive LoanFlaw where
  | noInstallments
  | outOfOrder (installment : Nat) (due : Date) (previous : Nat) (previousDue : Date)
  | negativeDue (installment : Nat)
  | negativeTotals (totals : Amounts)
  | noLiveInstallment (installment : Nat)
  | unknownStatus (code : Int)
  | reported (reason : String)
deriving DecidableEq

def LoanFlaw.message : LoanFlaw → String
  | .noInstallments => "no installments to allocate against"
  | .outOfOrder n due previous previousDue =>
    "installment " ++ toString n ++ " due " ++ due.toText ++ " precedes installment " ++
      toString previous ++ " due " ++ previousDue.toText
  | .negativeDue n => "installment " ++ toString n ++ " has a negative due amount"
  | .negativeTotals totals => "negative lifetime totals in summary: " ++ totals.describe
  | .noLiveInstallment n => "no live installment " ++ toString n
  | .unknownStatus code => "unknown loan status " ++ toString code
  | .reported reason => reason

inductive Error where
  | database (e : DatabaseError)
  | serialization (e : DecodeError)
  | conflict (reason : String)
  | loanNotFound (loan : LoanId)
  | invalidLoan (loan : LoanId) (flaw : LoanFlaw)
  | amountOutOfRange (amount : Decimal)
  | invalidParameter (name value : String)
  | pool (reason : String)
  | couldNotConnect (role : String) (cause : Error)
  | retriesExhausted (attempts : Nat) (last : Error)
  | other (reason : String)
deriving DecidableEq

namespace Error

def message : Error → String
  | .database e => "Database error: " ++ e.message
  | .serialization e => "Serialization error: " ++ e.message
  | .conflict reason => "Concurrency conflict: " ++ reason
  | .loanNotFound loan => "Loan " ++ toString loan ++ " not found"
  | .invalidLoan loan flaw => "Invalid data for loan " ++ toString loan ++ ": " ++ flaw.message
  | .amountOutOfRange amount => "Amount " ++ amount.toText ++ " does not fit in minor units"
  | .invalidParameter name value => "Invalid job parameter '" ++ name ++ "': " ++ value
  | .pool reason => "Worker pool failure: " ++ reason
  | .couldNotConnect role cause =>
    "Worker pool failure: " ++ role ++ " could not connect: " ++ cause.message
  | .retriesExhausted attempts last =>
    "Retries exhausted after " ++ toString attempts ++ " attempts: " ++ last.message
  | .other reason => reason

def «class» : Error → ErrorClass
  | .database e => e.class
  | .conflict _ => .transient
  | .loanNotFound _ | .invalidLoan .. | .amountOutOfRange _ | .serialization _ => .data
  | .invalidParameter .. | .pool _ | .couldNotConnect .. | .retriesExhausted .. | .other _ => .fatal

def isTransient (e : Error) : Bool :=
  e.class = .transient

/-- A statement that names a table which does not exist. -/
def noSuchTable (table : String) : Error :=
  .database (.failure DatabaseError.statement (some ("no such table: " ++ table)))

end Error

/-! ## Faults -/

inductive Fault where
  | error (e : Error)
  | crash (c : Crash)
deriving DecidableEq

instance : MonadLift (Except Crash) (Except Fault) where
  monadLift
    | .ok a => .ok a
    | .error c => .error (.crash c)

instance : MonadLift (Except Error) (Except Fault) where
  monadLift
    | .ok a => .ok a
    | .error e => .error (.error e)

/-- An amount in cents. -/
def Decimal.toCents (a : Decimal) : Except Error Cents :=
  match a.toCents? with
  | some c => .ok c
  | none => .error (.amountOutOfRange a)

/-- Amounts in cents; the first bucket that does not fit is reported. -/
def Amounts.toCents (b : Amounts) : Except Error (Buckets Cents) :=
  b.mapM Decimal.toCents

end LoanArrears
