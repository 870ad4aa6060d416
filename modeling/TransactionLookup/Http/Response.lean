import TransactionLookup.Decimal.Natural
import TransactionLookup.Text.Utf8
import TransactionLookup.Transaction.Field

/-!
# Responses

A response has a status, headers and a body. Its headers come from a few properties: what the body is,
how long it is, which methods a path takes, and what is told to pages of another origin.
-/

namespace TransactionLookup.Http

/-- What a body holds, with the text of its length. -/
structure Content where
  kind : String
  body : String
  length : String
  deriving DecidableEq, Repr

/-- What is told to pages of another origin. -/
inductive Sharing
  /-- Nothing: the response has not passed the check for origins. -/
  | unchecked
  /-- That the response may be read by all. -/
  | shared
  /-- Also that any method and any header is taken. -/
  | sharedForAll
  deriving DecidableEq, Repr

structure Response where
  status : Nat
  kind : Option String := none
  length : Option String := none
  /-- Whether it says that only reading is allowed. -/
  readingOnly : Bool := false
  sharing : Sharing := .unchecked
  body : String := ""
  deriving DecidableEq, Repr

def decimal (n : Nat) : String := String.ofList (Decimal.digits n)

def lengthText (body : String) : String := decimal (Text.utf8Length body.toList)

def jsonKind : String := "application/json"

def counterPageKind : String := "text/plain; version=0.0.4; charset=utf-8"

/-- Plain content, whose length is that of its body. -/
def Content.of (kind body : String) : Content := ⟨kind, body, lengthText body⟩

/-- A record as content. The length of one with a reading of the clock is left open with it. -/
def Content.ofRecord (r : Record) : Content :=
  let body := String.ofList r.json
  match r.timestamp with
  | .clock => ⟨jsonKind, body, String.ofList Timestamp.clockText⟩
  | .given _ => .of jsonKind body

namespace Response

/-- A response with content whose length is not told yet. -/
def bare (status : Nat) (content : Content) : Response :=
  { status, kind := some content.kind, body := content.body }

def withContent (status : Nat) (content : Content) : Response :=
  { bare status content with length := some content.length }

def withoutContent (status : Nat) : Response := { status, length := some "0" }

/-- The response to a method that a path does not take. -/
def readingOnlyRefusal : Response := { withoutContent 405 with readingOnly := true }

/-- The headers of what is told to pages of another origin, before and after the others. -/
def sharingHeaders : Sharing → List (String × String)
  | .unchecked => []
  | .shared => [("access-control-allow-origin", "*")]
  | .sharedForAll =>
    [("access-control-allow-headers", "*"), ("access-control-allow-methods", "*"),
      ("access-control-allow-origin", "*")]

/-- The request headers that a response may depend on for pages of another origin. -/
def varyHeaders : Sharing → List (String × String)
  | .unchecked => []
  | _ => [("vary", "origin, access-control-request-method, access-control-request-headers")]

/-- The headers of a response in the order of their names. -/
def headers (r : Response) : List (String × String) :=
  sharingHeaders r.sharing ++ (if r.readingOnly then [("allow", "GET,HEAD")] else []) ++
    (r.length.map fun n => ("content-length", n)).toList ++
    (r.kind.map fun k => ("content-type", k)).toList ++ varyHeaders r.sharing

end Response

end TransactionLookup.Http
