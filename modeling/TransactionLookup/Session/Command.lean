import TransactionLookup.Http.Request
import TransactionLookup.Lookup.Finding

/-!
# Commands

What clients of one store do, one after the other. An update carries a schedule of what other clients
do while it works on its copy: one list of commands for each round, as far as it goes.
-/

namespace TransactionLookup.Session

/-- What a client does. -/
inductive Command
  /-- Nothing, because the record that was to be stored cannot be read. -/
  | unreadable (report : Json.Report)
  | insert (r : Record)
  | upsert (r : Record)
  | remove (hash : TxHash)
  /-- Reads the store without counting that. -/
  | get (hash : TxHash)
  | lookup (hash : TxHash)
  | size
  /-- Keeps the version that is published now under a name. -/
  | hold (hash : TxHash) (name : String)
  /-- Shows a version that was kept. -/
  | held (name : String)
  | update (hash : TxHash) (edit : Record → Record) (during : List (List Command))
  | request (method target : String) (headers : List (String × String)) (body : String)

end TransactionLookup.Session
