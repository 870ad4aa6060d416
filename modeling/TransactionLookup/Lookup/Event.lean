import TransactionLookup.Lookup.Finding

/-!
# Log events

What is written to the log: one event for each thing that is worth a line there. Only the events of the
index of transactions and of the service over it are here. The layer around the routes that traces
requests writes events of its own, and these are left out.
-/

namespace TransactionLookup

/-- How urgent an event is. -/
inductive Level
  | error
  | warn
  | info
  | debug
  deriving DecidableEq, Repr

def Level.name : Level → String
  | .error => "ERROR"
  | .warn => "WARN"
  | .info => "INFO"
  | .debug => "DEBUG"

/-- An event of the index, the store, the routes or the answers to faults. The events of the layer that
traces requests are not among them. -/
inductive Event
  /-- The records of a seed file are in the store. -/
  | seedLoaded (path : String)
  | nothingFound
  | lookupFailed (fault : Fault)
  /-- An update starts over from a later version. -/
  | updateRetried (hash : TxHash)
  /-- A request was answered with a fault. -/
  | faultAnswered (fault : Fault)
  /-- The hash in a request is no text. -/
  | undecodable (segment : String)
  /-- No route leads to the path of a request. -/
  | unrouted (path : String)

namespace Event

def level : Event → Level
  | seedLoaded _ => .info
  | nothingFound | updateRetried _ | undecodable _ | unrouted _ => .debug
  | lookupFailed _ => .warn
  | faultAnswered _ => .error

/-- The part of the program that an event comes from. -/
def target : Event → String
  | seedLoaded _ | updateRetried _ => "tx_index::memory"
  | nothingFound | lookupFailed _ => "tx_index::index"
  | faultAnswered _ => "api::error"
  | undecodable _ => "api::routes::tx"
  | unrouted _ => "api::routes"

def message : Event → String
  | seedLoaded _ => "loaded transaction seed file"
  | nothingFound => "transaction not found"
  | lookupFailed _ => "transaction lookup failed"
  | updateRetried _ => "record changed during update, retrying"
  | faultAnswered _ => "transaction index fault"
  | undecodable _ => "undecodable hash segment"
  | unrouted _ => "no route matched"

/-- The named values that an event carries. -/
def fields : Event → List (String × String)
  | seedLoaded path => [("path", path)]
  | nothingFound => []
  | lookupFailed fault => [("error", fault.message)]
  | updateRetried hash => [("hash", hash.text)]
  | faultAnswered fault => [("error", fault.message)]
  | undecodable segment => [("hash", segment), ("error", "Invalid UTF-8 in `hash`")]
  | unrouted path => [("path", path)]

end Event

def Finding.events : Finding → List Event
  | .ok (some _) => []
  | .ok none => [.nothingFound]
  | .error fault => [.lookupFailed fault]

end TransactionLookup
