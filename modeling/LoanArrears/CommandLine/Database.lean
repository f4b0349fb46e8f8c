-- SUMMARY: Names of databases: a path or a URI, and what they say about where a database is and how it is opened.
import LoanArrears.Error
import LoanArrears.Text.Cut
import LoanArrears.Text.Numeral

/-!
# Names of databases

A name is a path, or a URI: `file:`, then an authority or none, a path, and
options behind a `?`. What follows a `#` is passed over. A `%` with two
hexadecimal digits stands for a byte; pieces are cut before they are decoded, so
such a byte never separates them.

Options count in the order in which they are written. The first one that is
refused makes the name stand for no database.
-/

namespace LoanArrears.CommandLine

/-- Where the tables of a database are. -/
inductive Place where
  | file (path : String)
  /-- Either all connections see the same tables, or each has its own. -/
  | memory (shared : Bool)
deriving DecidableEq

/-- What may be done to a database; each mode allows more than those before. -/
inductive AccessMode where
  | readOnly
  | readWrite
  /-- A file that is not there is made. -/
  | create
  /-- The tables are in memory, whatever the path is. -/
  | memory
deriving DecidableEq

structure Database where
  place : Place
  access : AccessMode
  /-- The tables are taken never to change. -/
  immutable : Bool
  /-- Connections have no memory in common. -/
  apart : Bool
  /-- A file whose permissions a new one takes on. -/
  model : Option String
deriving DecidableEq

/-- Why a name stands for no database. -/
inductive NameError where
  | unknownAuthority (text : String)
  | unknownCache (text : String)
  | unknownAccess (text : String)
  /-- An access mode that allows more than the one before. -/
  | refusedAccess (text : String)
  | unknownFileSystem (text : String)
deriving DecidableEq

namespace NameError

def code : NameError → Int
  | .refusedAccess _ => DatabaseError.permission
  | _ => DatabaseError.statement

def message : NameError → String
  | .unknownAuthority text => "invalid uri authority: " ++ text
  | .unknownCache text => "no such cache mode: " ++ text
  | .unknownAccess text => "no such access mode: " ++ text
  | .refusedAccess text => "access mode not allowed: " ++ text
  | .unknownFileSystem text => "no such vfs: " ++ text

def toError (e : NameError) : Error :=
  .database (.failure e.code (some e.message))

end NameError

/-! ## Pieces of a URI -/

namespace Uri

/-- The bytes of a piece; a zero byte ends it. -/
def bytes : List Char → List UInt8
  | '%' :: high :: low :: rest =>
    match Text.hexDigit? high, Text.hexDigit? low with
    | some 0, some 0 => []
    | some high, some low => UInt8.ofNat (high * 16 + low) :: bytes rest
    | _, _ => String.utf8EncodeChar '%' ++ bytes (high :: low :: rest)
  | c :: rest => String.utf8EncodeChar c ++ bytes rest
  | [] => []

/-- The text of a piece; one whose bytes are no text stands as it is written. -/
def decode (cs : List Char) : String :=
  (String.fromUTF8? (bytes cs).toByteArray).getD (String.ofList cs)

/-- What follows the authority, which is this machine. -/
def afterAuthority : List Char → Except NameError (List Char)
  | '/' :: '/' :: rest =>
    let authority := String.ofList (rest.takeWhile (· != '/'))
    if authority = "" ∨ authority = "localhost" then .ok (rest.dropWhile (· != '/'))
    else .error (.unknownAuthority authority)
  | cs => .ok cs

/-- Names and values of options; one without a name is none. -/
def options (cs : List Char) : List (String × String) :=
  let named := (Text.piecesAt '&' cs).map fun piece =>
    let (name, value) := Text.cutAt '=' piece
    (decode name, decode value)
  named.filter (·.1 != "")

end Uri

/-! ## Options -/

namespace AccessMode

def level : AccessMode → Nat
  | .readOnly => 0
  | .readWrite => 1
  | .create => 2
  | .memory => 3

def ofName? (name : String) : Option AccessMode :=
  [("ro", readOnly), ("rw", readWrite), ("rwc", create), ("memory", memory)].lookup name

/-- A mode may follow another one that allows as much. One in memory always may. -/
def mayFollow (mode earlier : AccessMode) : Bool :=
  mode = .memory || mode.level ≤ earlier.level

end AccessMode

namespace Switch

def hexValue (cs : List Char) : Nat :=
  cs.foldl (fun n c => n * 16 + (Text.hexDigit? c).getD 0) 0

/-- The number in front of a value, decimal or hexadecimal; one of 32 bits or
    more counts as zero. -/
def number (cs : List Char) : Nat :=
  let isHex (c : Char) := (Text.hexDigit? c).isSome
  let n := match cs with
    | '0' :: x :: rest =>
      if (x = 'x' ∨ x = 'X') ∧ rest.head?.any isHex then hexValue (rest.takeWhile isHex)
      else Text.value (cs.takeWhile Char.isDigit)
    | _ => Text.value (cs.takeWhile Char.isDigit)
  if n < Bound.nat32 / 2 then n else 0

/-- A value that switches an option on: a word, or a number that is not zero in
    its low eight bits. -/
def isOn (value : String) : Bool :=
  match value.toList with
  | c :: rest =>
    if c.isDigit then number (c :: rest) % 256 ≠ 0 else value.toLower ∈ ["on", "yes", "true"]
  | [] => false

end Switch

structure DatabaseOptions where
  access : AccessMode
  shared : Bool
  fileSystem : String
  /-- Of several options of the following names the first counts. -/
  immutable : Option Bool
  withoutLocks : Option Bool
  model : Option String
deriving DecidableEq

namespace DatabaseOptions

def standard : DatabaseOptions where
  access := .create
  shared := false
  fileSystem := "unix"
  immutable := none
  withoutLocks := none
  model := none

/-- File systems whose connections have no memory in common, and the others. -/
def apartSystems : List String :=
  ["unix-none", "unix-dotfile"]

def fileSystems : List String :=
  ["unix", "unix-excl", "memdb"] ++ apartSystems

def add (o : DatabaseOptions) : String × String → Except NameError DatabaseOptions
  | ("vfs", value) => .ok { o with fileSystem := value }
  | ("cache", "shared") => .ok { o with shared := true }
  | ("cache", "private") => .ok { o with shared := false }
  | ("cache", value) => .error (.unknownCache value)
  | ("mode", value) =>
    match AccessMode.ofName? value with
    | none => .error (.unknownAccess value)
    | some mode =>
      if mode.mayFollow o.access then .ok { o with access := mode }
      else .error (.refusedAccess value)
  | ("immutable", value) => .ok { o with immutable := o.immutable <|> some (Switch.isOn value) }
  | ("nolock", value) => .ok { o with withoutLocks := o.withoutLocks <|> some (Switch.isOn value) }
  | ("modeof", value) => .ok { o with model := o.model <|> some value }
  | _ => .ok o

/-- What some options say together. -/
def ofList (options : List (String × String)) : Except NameError DatabaseOptions := do
  let o ← options.foldlM add standard
  if o.fileSystem ∈ fileSystems then return o
  else throw (.unknownFileSystem o.fileSystem)

/-- A database with neither a file nor the name of one. -/
def isNameless (o : DatabaseOptions) (path : String) : Bool :=
  path = "" || path = ":memory:" || o.access = .memory

/-- A database in memory is shared if its options say so; of those that are
    kept like files, also one with a path from the root. -/
def place (o : DatabaseOptions) (path : String) : Place :=
  if o.isNameless path then .memory (o.shared && path != "")
  else if o.fileSystem = "memdb" then
    .memory (o.shared || 1 < path.length && path.toList.head? ∈ [some '/', some '\\'])
  else .file path

end DatabaseOptions

/-! ## Names -/

namespace Database

/-- The database of a path, with some options. -/
def ofPath (path : String) (o : DatabaseOptions) : Database where
  place := o.place path
  access := o.access
  immutable := o.immutable.getD false && !o.isNameless path
  apart := o.withoutLocks.getD false || o.fileSystem ∈ DatabaseOptions.apartSystems
  model := o.model

def scheme : List Char :=
  "file:".toList

def ofUri (cs : List Char) : Except NameError Database := do
  let rest ← Uri.afterAuthority cs
  let (path, options) := Text.cutAt '?' (Text.cutAt '#' rest).1
  return ofPath (Uri.decode path) (← DatabaseOptions.ofList (Uri.options options))

def ofName (name : String) : Except NameError Database :=
  if scheme.isPrefixOf name.toList then ofUri (name.toList.drop scheme.length)
  else .ok (ofPath name .standard)

/-- Each connection has tables of its own. -/
def isPrivate (d : Database) : Bool :=
  d.place = .memory false

/-- No statement can change the tables. -/
def readOnly (d : Database) : Bool :=
  d.access = .readOnly || d.immutable

/-! ## Errors -/

/-- The name of a file that is not there, or that is no file. -/
def cannotOpen (name : String) : Error :=
  .database (.failure DatabaseError.cannotOpen (some ("unable to open database file: " ++ name)))

/-- A file that is there, but whose log or journal cannot be used. -/
def cannotUse : Error :=
  .database (.failure DatabaseError.cannotOpen (some "unable to open database file"))

/-- A file with something else in it. -/
def notADatabase : Error :=
  .database (.failure DatabaseError.notDatabase (some "file is not a database"))

/-- A statement that would change what can only be read. -/
def notWritable : Error :=
  .database (.failure DatabaseError.readOnly (some "attempt to write a readonly database"))

def cannotReadDisk : Error :=
  .database (.failure DatabaseError.disk (some "disk I/O error"))

end Database

end LoanArrears.CommandLine
