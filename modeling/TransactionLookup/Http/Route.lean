import TransactionLookup.Http.Percent
import TransactionLookup.Text.Utf8

/-!
# Routes

Where the path of a request leads. Paths are compared as they are sent, with their escapes.
-/

namespace TransactionLookup.Http

/-- What a path stands for. -/
inductive Route
  | probe
  /-- The transaction whose hash is a segment of the path. -/
  | transaction (segment : List Char)
  | counters
  | nowhere
  deriving DecidableEq, Repr

/-- Whether some characters are a segment of a path. -/
def isSegment (cs : List Char) : Bool := cs != [] && cs.all (· != '/')

def Route.ofPath (path : List Char) : Route :=
  if path = "/ping".toList then .probe
  else if path = "/metrics".toList then .counters
  else
    match path with
    | '/' :: 't' :: 'x' :: '/' :: segment =>
      if isSegment segment then .transaction segment else .nowhere
    | _ => .nowhere

/-- Whether a route takes methods for reading only. -/
def Route.isReadingOnly : Route → Bool
  | .transaction _ | .counters => true
  | .probe | .nowhere => false

end TransactionLookup.Http
