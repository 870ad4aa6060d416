import TransactionLookup.Http.Uri

/-!
# Requests

A request is put together from its method, its target and its headers, which are checked in this
order. Headers have to be well formed, but neither they nor the body have an influence on what is
answered.
-/

namespace TransactionLookup.Http

/-- Why a request cannot be put together. -/
inductive RequestProblem
  | method
  | target (problem : UriProblem)
  | headerName
  | headerValue
  deriving DecidableEq, Repr

def RequestProblem.message : RequestProblem → String
  | .method => "invalid HTTP method"
  | .target problem => problem.message
  | .headerName => "invalid HTTP header name"
  | .headerValue => "failed to parse header value"

/-- A request, its target cut down to the path as it is sent. -/
structure Request where
  method : String
  path : List Char
  headers : List (String × String)
  body : String
  deriving DecidableEq, Repr

/-- The greatest length of the name of a header. -/
def headerNameLimit : Nat := 65535

/-- Whether a character may stand in a method or in the name of a header. -/
def isTokenChar (c : Char) : Bool := c.isAlphanum || c ∈ "!#$%&'*+-.^_`|~".toList

def isToken (text : String) : Bool := text != "" && text.toList.all isTokenChar

def isHeaderName (name : String) : Bool := isToken name && name.length ≤ headerNameLimit

/-- Whether a text is the value of a header: it has no control characters but tabs. -/
def isHeaderValue (value : String) : Bool :=
  value.toList.all fun c => c == '\t' || (0x20 ≤ c.toNat && c.toNat != 0x7F)

/-- The first problem of some headers. -/
def headerProblem? : List (String × String) → Option RequestProblem
  | [] => none
  | (name, value) :: headers =>
    if !isHeaderName name then some .headerName
    else if !isHeaderValue value then some .headerValue
    else headerProblem? headers

def Request.of (method target : String) (headers : List (String × String)) (body : String) :
    Except RequestProblem Request :=
  if !isToken method then .error .method
  else
    match pathOfTarget target.toList with
    | .error problem => .error (.target problem)
    | .ok path =>
      match headerProblem? headers with
      | some problem => .error problem
      | none => .ok ⟨method, path, headers, body⟩

/-- Whether a request asks for what is there without changing it. -/
def Request.isReading (r : Request) : Bool := r.method == "GET" || r.method == "HEAD"

end TransactionLookup.Http
