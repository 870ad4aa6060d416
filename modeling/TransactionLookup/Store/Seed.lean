import TransactionLookup.Lookup.Event
import TransactionLookup.Store.Basic
import TransactionLookup.Transaction.Reading

/-!
# Seed files

A store can start with the records of a file: a document with a list of them. The file is looked for
in a working folder that holds nothing else.
-/

namespace TransactionLookup

/-- What stands under a path. -/
inductive SeedEntry
  | absent
  | folder
  | file (content : List UInt8)
  deriving DecidableEq, Repr

/-- The greatest length of a path, in bytes. -/
def pathLimit : Nat := 4095

/-- The greatest length of a name in a path, in bytes. -/
def nameLimit : Nat := 255

def pathNames (path : String) : List (List Char) := path.toList.splitOn '/'

/-- Whether a name stands for a folder that is always there. -/
def isStanding (name : List Char) : Bool := name == [] || name == ['.'] || name == ['.', '.']

/-- Why nothing is found under a path: its first name that stands for nothing decides. A path of
standing names alone is that of a folder. -/
def absenceProblem (path : String) : FileProblem :=
  match (pathNames path).find? fun name => !isStanding name with
  | some name => if nameLimit < Text.utf8Length name then .nameTooLong else .missing
  | none => if path = "" then .missing else .folder

/-- The text under a path. -/
def SeedEntry.read (path : String) (entry : SeedEntry) : Except FileProblem String :=
  if '\x00' ∈ path.toList then .error .nulInName
  else if pathLimit < Text.utf8Length path.toList then .error .nameTooLong
  else
    match entry with
    | .absent => .error (absenceProblem path)
    | .folder => .error .folder
    | .file content =>
      match Text.ofUtf8? content with
      | some text => .ok text
      | none => .error .notText

/-- The store with the records of a seed file. -/
def Store.load (path : String) (entry : SeedEntry) : Except Fault Store :=
  match entry.read path with
  | .error problem => .error (.unreadable path problem)
  | .ok text =>
    match Record.readAll text.toList with
    | .error report => .error (.malformed report)
    | .ok records => Store.ofRecords records

/-- The store with the records of a seed file, and what loading it writes to the log. -/
def Store.loadLogged (path : String) (entry : SeedEntry) : Except Fault Store × List Event :=
  match Store.load path entry with
  | .ok store => (.ok store, [.seedLoaded path])
  | .error fault => (.error fault, [])

end TransactionLookup
