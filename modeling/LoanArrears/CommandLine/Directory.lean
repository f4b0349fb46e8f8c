-- SUMMARY: Files by their paths, what a path leads to, and the command as a function of the files that it finds.
import LoanArrears.CommandLine.Run

/-!
# The command among files

A `Directory` holds files by the names on the way to them from the root, and the
place where the command is started. A path is followed name by name, so every
name on the way has to be there. The path of a database is shortened first: a
name that `..` takes back need not be there, but it must not lead through a file.

`Directory.execute` is the command as a whole: from arguments to what is printed
and the files that are left.
-/

namespace LoanArrears.CommandLine

inductive FileContent where
  | text (s : String)
  | tables (s : Store)

/-- Names on the way from the root. -/
abbrev Way : Type :=
  List String

structure Directory where
  files : List (Way × FileContent)
  start : Way

/-- Why a path leads nowhere. -/
inductive PathError where
  | notFound
  | notADirectory
  | nameTooLong
deriving DecidableEq

def PathError.message : PathError → String
  | .notFound => "No such file or directory (os error 2)"
  | .notADirectory => "Not a directory (os error 20)"
  | .nameTooLong => "File name too long (os error 36)"

namespace Directory

/-- Names have at most this many bytes. -/
def maxName : Nat := 255

/-- A path that is followed has fewer bytes than this. -/
def maxPath : Nat := 4096

def file? (d : Directory) (way : Way) : Option FileContent :=
  d.files.lookup way

def isDirectory (d : Directory) (way : Way) : Bool :=
  way.isPrefixOf d.start || d.files.any fun (w, _) => way.isPrefixOf w && way != w

def names (path : String) : List String :=
  (Text.piecesAt '/' path.toList).map String.ofList

/-- Where a path begins: at the root, or where the command is started. -/
def origin (d : Directory) (path : String) : Way :=
  if path.startsWith "/" then [] else d.start

/-! ## Following a path -/

/-- One name further on the way. -/
def follow (d : Directory) (way : Way) (name : String) : Except PathError Way :=
  if !d.isDirectory way then .error (if (d.file? way).isSome then .notADirectory else .notFound)
  else if name = "" ∨ name = "." then .ok way
  else if name = ".." then .ok way.dropLast
  else if maxName < name.utf8ByteSize then .error .nameTooLong
  else .ok (way ++ [name])

/-- Where a path leads, if something is there. -/
def find (d : Directory) (path : String) : Except PathError Way := do
  if path = "" then throw .notFound
  if maxPath ≤ path.utf8ByteSize then throw .nameTooLong
  let way ← (names path).foldlM d.follow (d.origin path)
  if d.isDirectory way || (d.file? way).isSome then return way else throw .notFound

def readText (d : Directory) (path : String) : Except ReadFailure String :=
  match d.find path with
  | .error e => .error (.opening e.message)
  | .ok way =>
    match d.file? way with
    | some (.text s) => .ok s
    | some (.tables _) => .error (.reading "stream did not contain valid UTF-8")
    | none => .error (.reading "Is a directory (os error 21)")

/-! ## Databases -/

/-- One name further on a way that is shortened. -/
def shorten (d : Directory) (way : Way) (name : String) : Option Way :=
  if name = "" ∨ name = "." then some way
  else if name = ".." then some way.dropLast
  else if d.files.any fun (w, _) => w.isPrefixOf way then none
  else if d.isDirectory way && maxName < name.utf8ByteSize then none
  else some (way ++ [name])

/-- The way of a path without detours; it has to leave the root. -/
def shortWay (d : Directory) (path : String) : Option Way :=
  ((names path).foldlM d.shorten (d.origin path)).filter (· != [])

/-- The longest name of a file beside which a journal can be kept. -/
def maxJournalled : Nat := maxName - "-journal".length

/-- The store in a database, before it is migrated. -/
def openStore (d : Directory) (name : String) (db : Database) : Except Error Store :=
  match db.place with
  | .memory _ => .ok .unmigrated
  | .file path =>
    match d.shortWay path with
    | none => .error (Database.cannotOpen name)
    | some way =>
      if db.model.any fun model => !(d.find model).isOk then .error Database.cannotReadDisk
      else if d.isDirectory way then
        .error (if db.access = .readOnly then Database.cannotReadDisk else Database.cannotOpen name)
      else if !d.isDirectory way.dropLast then .error (Database.cannotOpen name)
      else
        match d.file? way with
        | some (.tables s) => if db.apart && !db.immutable then .error Database.cannotUse else .ok s
        | some (.text s) => if s.utf8ByteSize ≤ 1 then .ok .unmigrated else .error Database.notADatabase
        | none =>
          if db.access ≠ .create then .error (Database.cannotOpen name)
          else if !db.immutable && way.getLast?.any (maxJournalled < ·.utf8ByteSize) then
            .error Database.cannotUse
          else .ok .unmigrated

/-- The files after a database was used. -/
def keepStore (d : Directory) (db : Database) (s : Store) : Directory :=
  match db.place with
  | .memory _ => d
  | .file path =>
    match d.shortWay path with
    | none => d
    | some way => { d with files := (way, .tables s) :: d.files.filter (·.1 != way) }

/-! ## The command -/

/-- Carry out a plan: open its database, and do its steps. -/
def carryOut (d : Directory) (p : Plan) : Ending × Directory :=
  match Database.ofName p.database with
  | .error e => (.failed (.failed e.toError), d)
  | .ok db =>
    match d.openStore p.database db with
    | .error e => (.failed (.failed e), d)
    | .ok s =>
      let (ending, s) := p.run db (d.keepStore db s).readText s
      (ending, d.keepStore db s)

/-- Run the command on the day `today`; answers the plan if there is one, the
    end, and the files left behind. -/
def execute (d : Directory) (args : List String) (today : Date) :
    Option Plan × Ending × Directory :=
  match (Request.ofArgs args).plan today d.readText with
  | .error f => (none, .failed f, d)
  | .ok p => (some p, d.carryOut p)

end Directory

end LoanArrears.CommandLine
