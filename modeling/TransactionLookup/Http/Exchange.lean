import TransactionLookup.Http.Refusal
import TransactionLookup.Http.Request
import TransactionLookup.Http.Route
import TransactionLookup.Lookup.Counters

/-!
# Exchanges

The answer to a request: a probe that always answers, records looked up by hash, the page of the
counters, and a refusal everywhere else. Answering takes the store as something to be read, and so
cannot change it. It is written for readers of any kind. The one that is used notes down each hash that
it is asked for, so that what was read is a result of the run.
-/

namespace TransactionLookup.Http

/-- The answer to a request, and what it took. -/
structure Exchange where
  response : Response
  /-- The hash that was looked up, if any, and what came of it. -/
  lookup : Option (TxHash × Finding) := none
  events : List Event := []
  /-- The hashes that the store was read for, the first one first. -/
  asked : List TxHash := []

namespace Exchange

/-- How often the store was read. -/
def reads (e : Exchange) : Nat := e.asked.length

def counters (e : Exchange) (c : Counters) : Counters :=
  match e.lookup with
  | some (_, finding) => c.count finding.outcome
  | none => c

def ofContent (content : Content) : Exchange := { response := .withContent 200 content }

def ofRefusal (r : Refusal) : Exchange :=
  { response := .withContent r.status r.content, events := r.events }

def probe : Exchange :=
  let body := Json.objectText [("ping", Json.quote ['p', 'o', 'n', 'g'])]
  ofContent (.of jsonKind (String.ofList body))

def page (c : Counters) : Exchange := ofContent (.of counterPageKind c.page)

/-- The answer to what was found under a hash. -/
def ofFinding (hash : TxHash) : Finding → Exchange
  | .ok (some r) => ofContent (.ofRecord r)
  | .ok none => ofRefusal (.noTransaction hash.text)
  | .error fault => ofRefusal (.fault fault)

/-- The answer to a path that leads nowhere. -/
def unrouted (path : List Char) : Exchange :=
  let name := String.ofList path
  { ofRefusal (.noRoute name) with events := [.unrouted name] }

/-- The answer to a method that a route does not take. -/
def methodRefused : Exchange := { response := .readingOnlyRefusal }

/-- The answer to a page that asks what it may send. -/
def options (route : Route) : Exchange :=
  { response :=
      { Response.withoutContent 200 with
        readingOnly := route.isReadingOnly, sharing := .sharedForAll } }

/-- A response as it is sent: to `HEAD` without its body, and to `CONNECT` without its body and its
length once the connection stands. -/
def sent (method : String) (r : Response) : Response :=
  if method = "HEAD" then { r with body := "" }
  else if method = "CONNECT" ∧ r.status = 200 then { r with body := "", length := none }
  else r

section Asking

variable {m : Type → Type} [Monad m] (find : TxHash → m Finding)

/-- Looks up the hash that a segment of a path stands for. A segment that stands for no text is
answered like a hash of no transaction, and nothing is looked up. -/
def askTransaction (segment : List Char) : m Exchange :=
  match decodeText? segment with
  | none =>
    let name := String.ofList segment
    pure { ofRefusal (.noTransaction name) with events := [.undecodable name] }
  | some text => do
    let hash : TxHash := ⟨text⟩
    let finding ← find hash
    let answer := ofFinding hash finding
    pure { answer with lookup := some (hash, finding), events := finding.events ++ answer.events }

def askRoute (c : Counters) (r : Request) : m Exchange :=
  match Route.ofPath r.path with
  | .probe => pure probe
  | .nowhere => pure (unrouted r.path)
  | .counters => pure (if r.isReading then page c else methodRefused)
  | .transaction segment =>
    if r.isReading then askTransaction find segment else pure methodRefused

def ask (c : Counters) (r : Request) : m Exchange :=
  -- answered before any route is asked
  if r.method = "OPTIONS" then pure (options (Route.ofPath r.path))
  else do
    let e ← askRoute find c r
    pure { e with response := { sent r.method e.response with sharing := .shared } }

end Asking

/-- A reader of the store that notes down what it is asked for. -/
def noting (find : TxHash → Finding) (hash : TxHash) : StateM (List TxHash) Finding :=
  fun asked => (find hash, asked ++ [hash])

/-- An exchange that was asked for with such a reader, with what was noted down. -/
def noted (work : StateM (List TxHash) Exchange) : Exchange :=
  { (work.run []).1 with asked := (work.run []).2 }

def answer (find : TxHash → Finding) (c : Counters) (r : Request) : Exchange :=
  noted (ask (noting find) c r)

end Exchange

end TransactionLookup.Http
