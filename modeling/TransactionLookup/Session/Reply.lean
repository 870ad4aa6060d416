import TransactionLookup.Http.Exchange

/-!
# Replies

What a command gives back.
-/

namespace TransactionLookup.Session

/-- What a command gives back. -/
inductive Reply
  | unreadable (report : Json.Report)
  | inserted
  | replaced (old : Option Record)
  | removed (old : Option Record)
  | read (r : Option Record)
  | looked (r : Option Record)
  | size (count : Nat)
  | held (found : Bool)
  | version (r : Option Record)
  /-- Whether an update was published, the records it started its rounds from, and the replies to what
  was done in each of its rounds. -/
  | updated (published : Bool) (seen : List Record) (during : List (List Reply))
  | response (response : Http.Response) (reads : Nat)
  | fault (fault : Fault)
  | badRequest (problem : Http.RequestProblem)

end TransactionLookup.Session
