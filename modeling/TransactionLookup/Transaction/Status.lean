import TransactionLookup.Json.Value

/-!
# Statuses

How far the processing of an inbound transaction has come. In a document a status is its name, or an
object with the name for its only key and null for its value.
-/

namespace TransactionLookup

/-- The progress of an inbound transaction. -/
inductive Status
  /-- Outbound transactions are still to come. -/
  | incomplete
  /-- All outbound transactions have been sent. -/
  | done
  /-- Sent back. -/
  | reverted
  deriving DecidableEq, Repr

namespace Status

def all : List Status := [incomplete, done, reverted]

def name : Status → String
  | incomplete => "incomplete"
  | done => "done"
  | reverted => "reverted"

/-- The status of a transaction of which nothing else is known. -/
def initial : Status := incomplete

def ofName? (name : String) : Option Status := all.find? fun s => s.name == name

/-- The status with a given name, or the problem that there is none. -/
def ofName (name : String) : Except Json.Problem Status :=
  match ofName? name with
  | some s => .ok s
  | none => .error (.unknownName name (all.map Status.name))

def json (s : Status) : List Char := Json.quote s.name.toList

/-- A name in quotes, the first of which is read. -/
def readName (text : List Char) : Except Json.Failure (Status × List Char) :=
  match Json.readQuoted text with
  | .error e => .error e
  | .ok (cs, rest) =>
    match ofName (String.ofList cs) with
    | .error p => .error (.here p rest)
    | .ok s => .ok (s, rest)

/-- The null after a name in an object, and the end of the object. -/
def readNull (text : List Char) : Except Json.Failure (List Char) :=
  match (Json.afterColon Json.unitLeaf.reader).read text with
  | .error e => .error e
  | .ok ((), rest) =>
    match Json.dropSpace rest with
    | [] => .error (.next .endInObject [])
    | '}' :: rest => .ok rest
    | text => .error (.here .valueExpected text)

/-- An object with a name for its key, its bracket read. -/
def readObject (text : List Char) : Except Json.Failure (Status × List Char) :=
  match Json.dropSpace text with
  | [] => .error (.next .endInObject [])
  | '"' :: rest =>
    match readName rest with
    | .error e => .error e
    | .ok (s, rest) =>
      match readNull rest with
      | .error e => .error e
      | .ok rest => .ok (s, rest)
  | '}' :: rest => .error (.next .valueExpected ('}' :: rest))
  | text => .error (.next .keyNotText text)

def read (text : List Char) : Except Json.Failure (Status × List Char) :=
  match Json.dropSpace text with
  | [] => .error (.next .endInValue [])
  | '"' :: rest => readName rest
  | '{' :: rest => readObject rest
  | text => .error (.next .valueExpected text)

theorem readName_shrinks {text rest : List Char} {s : Status}
    (found : readName text = .ok (s, rest)) : rest.length < text.length := by
  unfold readName at found
  split at found
  · cases found
  next quoted =>
    split at found
    · cases found
    · cases found
      exact Json.readQuoted_shrinks quoted

theorem readNull_shrinks {text rest : List Char} (found : readNull text = .ok rest) :
    rest.length < text.length := by
  unfold readNull at found
  split at found
  · cases found
  next null =>
    have := (Json.afterColon Json.unitLeaf.reader).shrinks null
    split at found
    · cases found
    next start =>
      have := Json.length_lt_of_dropSpace start
      cases found
      omega
    · cases found

theorem readObject_shrinks {text rest : List Char} {s : Status}
    (found : readObject text = .ok (s, rest)) : rest.length < text.length := by
  unfold readObject at found
  split at found
  · cases found
  next start =>
    have := Json.length_lt_of_dropSpace start
    split at found
    · cases found
    next named =>
      split at found
      · cases found
      next null =>
        have := readName_shrinks named
        have := readNull_shrinks null
        cases found
        omega
  · cases found
  · cases found

def reader : Json.Reader Status where
  read := read
  shrinks {text rest s} found := by
    unfold read at found
    split at found
    · cases found
    next start => exact Nat.lt_trans (readName_shrinks found) (Json.length_lt_of_dropSpace start)
    next start => exact Nat.lt_trans (readObject_shrinks found) (Json.length_lt_of_dropSpace start)
    · cases found

def ofMembers (members : List (String × Json.Value)) : Except Json.Problem Status :=
  match members with
  | [(name, value)] =>
    match ofName name with
    | .error p => .error p
    | .ok s =>
      match Json.unitLeaf.ofValue value with
      | .error p => .error p
      | .ok () => .ok s
  | _ => .error (.wrongValue .map .singleKey)

def ofValue (value : Json.Value) : Except Json.Problem Status :=
  match value with
  | .scalar (.text name) => ofName name
  | .map members => ofMembers (Json.settled members)
  | value => .error (.wrongType value.shape .nameOrMap)

end Status

end TransactionLookup
