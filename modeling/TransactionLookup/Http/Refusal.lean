import TransactionLookup.Http.Response
import TransactionLookup.Lookup.Event

/-!
# Refusals

What a request is answered when it cannot have what it asks for. A fault of the storage has two
wordings: one for the log with all details, and one for the client with none.
-/

namespace TransactionLookup.Http

/-- Why a request does not get what it asks for. -/
inductive Refusal
  | noTransaction (name : String)
  | noRoute (path : String)
  | fault (fault : Fault)

namespace Refusal

def status : Refusal → Nat
  | noTransaction _ | noRoute _ => 404
  | fault f => if f.isUnavailable then 503 else 500

def message : Refusal → String
  | noTransaction name => "transaction " ++ name ++ " not found"
  | noRoute path => "no route for " ++ path
  | fault f => f.message

def publicMessage : Refusal → String
  | fault f => if f.isUnavailable then "service unavailable" else "internal server error"
  | refusal => refusal.message

/-- The wording of what caused a refusal, if something else did. -/
def cause? : Refusal → Option String
  | fault f => f.cause?
  | _ => none

/-- The body of the response: an object that tells the error. -/
def body (r : Refusal) : String :=
  String.ofList (Json.objectText [("error", Json.quote r.publicMessage.toList)])

def content (r : Refusal) : Content := .of jsonKind r.body

def events : Refusal → List Event
  | fault f => [.faultAnswered f]
  | _ => []

end Refusal

end TransactionLookup.Http
