import TransactionLookup.Session.Reply
import TransactionLookup.Store.Seed

/-!
# Shared state

One store, read through the faults that are set for it, with the counters, the log and the versions
that clients keep; and each thing that a client can do at once.
-/

namespace TransactionLookup.Session

/-- What clients share. -/
structure State where
  store : Store
  faults : Faults := {}
  counters : Counters := {}
  log : List Event := []
  kept : List (String × Version) := []

namespace State

def ofRecords (faults : Faults) (records : List Record) : Except Fault State :=
  match Store.ofRecords records with
  | .ok store => .ok { store, faults }
  | .error fault => .error fault

def load (faults : Faults) (path : String) (entry : SeedEntry) : Except Fault State :=
  match Store.loadLogged path entry with
  | (.ok store, events) => .ok { store, faults, log := events }
  | (.error fault, _) => .error fault

def logged (s : State) (events : List Event) : State := { s with log := s.log ++ events }

def find (s : State) (hash : TxHash) : Finding := s.store.find s.faults hash

def insert (s : State) (r : Record) : State × Reply :=
  match s.store.insert r with
  | .ok store => ({ s with store }, .inserted)
  | .error fault => (s, .fault fault)

def upsert (s : State) (r : Record) : State × Reply :=
  ({ s with store := (s.store.upsert r).1 }, .replaced (s.store.upsert r).2)

def remove (s : State) (hash : TxHash) : State × Reply :=
  ({ s with store := (s.store.remove hash).1 }, .removed (s.store.remove hash).2)

/-- Shows what was found, or the fault. -/
def replyTo (shown : Option Record → Reply) : Finding → Reply
  | .ok r => shown r
  | .error fault => .fault fault

def lookup (s : State) (hash : TxHash) : State × Reply :=
  let finding := s.find hash
  ({ s.logged finding.events with counters := s.counters.count finding.outcome },
    replyTo .looked finding)

def hold (s : State) (hash : TxHash) (name : String) : State × Reply :=
  match s.store.get? hash with
  | some version => ({ s with kept := (name, version) :: s.kept }, .held true)
  | none => (s, .held false)

def answer (s : State) (r : Http.Request) : State × Reply :=
  let e := Http.Exchange.answer s.find s.counters r
  ({ s.logged e.events with counters := e.counters s.counters }, .response e.response e.reads)

def withStore (s : State) (store : Store) : State := { s with store }

end State

end TransactionLookup.Session
