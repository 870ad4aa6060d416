import TransactionLookup.Store.Basic

/-!
# Findings

What a read of the store gives: the record under a hash, the answer that there is none, or a fault. A
read can be made to fail, for one hash or for all.
-/

namespace TransactionLookup

/-- What comes of looking a hash up. -/
abbrev Finding := Except Fault (Option Record)

inductive Outcome
  | error
  | found
  | notFound
  deriving DecidableEq, Repr

def Finding.outcome : Finding → Outcome
  | .error _ => .error
  | .ok (some _) => .found
  | .ok none => .notFound

namespace Outcome

/-- The outcomes in the order of their names. -/
def all : List Outcome := [error, found, notFound]

def name : Outcome → String
  | error => "error"
  | found => "found"
  | notFound => "not_found"

end Outcome

/-- The faults that reads of the store meet: a fault of its own for a hash goes before that for all. -/
structure Faults where
  everywhere : Option Fault := none
  onHashes : List (TxHash × Fault) := []

/-- The fault that a read of a hash meets: the one set on it last, or else the one set everywhere. -/
def Faults.on (faults : Faults) (hash : TxHash) : Option Fault :=
  match faults.onHashes.reverse.lookup hash with
  | some fault => some fault
  | none => faults.everywhere

/-- What a read of the store finds under a hash. -/
def Store.find (s : Store) (faults : Faults) (hash : TxHash) : Finding :=
  match faults.on hash with
  | some fault => .error fault
  | none => .ok (s.record? hash)

end TransactionLookup
