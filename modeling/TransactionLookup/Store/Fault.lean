import TransactionLookup.Json.Problem
import TransactionLookup.Transaction.Hash

/-!
# Faults

What can go wrong with the storage of records. That no record is stored under a hash is no fault.
-/

namespace TransactionLookup

/-- Why a file cannot be read. -/
inductive FileProblem
  | missing
  | folder
  | nameTooLong
  | nulInName
  | notText
  /-- What the system reports. -/
  | reported (text : String)
  deriving DecidableEq, Repr

def FileProblem.message : FileProblem → String
  | .missing => "No such file or directory (os error 2)"
  | .folder => "Is a directory (os error 21)"
  | .nameTooLong => "File name too long (os error 36)"
  | .nulInName => "file name contained an unexpected NUL byte"
  | .notText => "stream did not contain valid UTF-8"
  | .reported text => text

inductive Fault
  | unavailable (text : String)
  | duplicate (hash : TxHash)
  | unreadable (path : String) (problem : FileProblem)
  | malformed (report : Json.Report)

namespace Fault

def message : Fault → String
  | unavailable text => "Index unavailable: " ++ text
  | duplicate hash => "Duplicate transaction hash: " ++ hash.text
  | unreadable path problem => "Failed to read seed file " ++ path ++ ": " ++ problem.message
  | malformed report => "Serialization error: " ++ report.message

/-- The wording of what caused a fault, if something else did. -/
def cause? : Fault → Option String
  | unavailable _ | duplicate _ => none
  | unreadable _ problem => some problem.message
  | malformed report => some report.message

/-- Whether the storage could not be reached, as opposed to having failed. -/
def isUnavailable : Fault → Bool
  | unavailable _ => true
  | _ => false

end Fault

end TransactionLookup
