import TransactionLookup.Json.Reader
import TransactionLookup.Text.Utf8

/-!
# Values of a document

A whole value as a tree, with the members of an object as they are written. One who asks an object
for its members gets them in the order of the bytes of their keys, and of several with one key the
last. Containers may be nested to a fixed depth.
-/

namespace TransactionLookup.Json

inductive Value
  | scalar (s : Scalar)
  | sequence (items : List Value)
  | map (members : List (String × Value))

def Value.shape : Value → Shape
  | .scalar s => .scalar s
  | .sequence _ => .sequence
  | .map _ => .map

def Leaf.ofValue (leaf : Leaf α) (value : Value) : Except Problem α := leaf.ofShape value.shape

/-- Puts a member in its place, or in the place of one with its key. -/
def insertMember (name : String) (value : Value) :
    List (String × Value) → List (String × Value)
  | [] => [(name, value)]
  | (other, old) :: members =>
    match Text.compareUtf8 name other with
    | .lt => (name, value) :: (other, old) :: members
    | .eq => (name, value) :: members
    | .gt => (other, old) :: insertMember name value members

/-- The members that count, in the order of the bytes of their keys. -/
def settled (members : List (String × Value)) : List (String × Value) :=
  members.foldl (fun found member => insertMember member.1 member.2 found) []

/-- The reader of the value after a key, with the colon between them. -/
def afterColon (reader : Reader α) : Reader α where
  read text :=
    match readColon text with
    | .error e => .error e
    | .ok rest => reader.read rest
  shrinks {text rest a} read := by
    split at read
    · cases read
    next colon => exact Nat.lt_trans (reader.shrinks read) (readColon_shrinks colon)

/-- The reader that puts a member before the earlier ones of its object. -/
def memberReader (inner : Reader Value) (name : String) (members : List (String × Value)) :
    Reader (List (String × Value)) :=
  (afterColon inner).map fun value => (name, value) :: members

/-- The members of a container with a given shape, its bracket read. -/
def readMembersOf (inner : Reader Value) (shape : Shape) (text : List Char) :
    Except Failure (Value × List Char) :=
  match shape with
  | .scalar s => .ok (.scalar s, text)
  | .sequence =>
    match readElements inner true text with
    | .error e => .error e
    | .ok (items, rest) => .ok (.sequence items, rest)
  | .map =>
    match readMembers (memberReader inner) true [] text with
    | .error e => .error e
    | .ok (members, rest) => .ok (.map members.reverse, rest)

theorem readMembersOf_le {inner : Reader Value} {shape : Shape} {text rest : List Char}
    {value : Value} (read : readMembersOf inner shape text = .ok (value, rest)) :
    rest.length ≤ text.length := by
  unfold readMembersOf at read
  split at read
  · simp at read; simp [read.2]
  · split at read
    · cases read
    next found =>
      cases read
      exact Nat.le_of_lt (readElements_shrinks found)
  · split at read
    · cases read
    next found =>
      cases read
      exact Nat.le_of_lt (readMembers_shrinks found)

/-- The reader of scalars alone, for the depth at which no container may stand. -/
def scalarReader : Reader Value where
  read text :=
    match readShape text with
    | .error e => .error e
    | .ok (.scalar s, rest) => .ok (.scalar s, rest)
    | .ok (shape, rest) => .error (.next .tooDeep (shape.left rest))
  shrinks {text rest v} read := by
    split at read
    · cases read
    next found =>
      cases read
      exact readShape_shrinks found
    · cases read

/-- The reader of values whose members, if they have any, are read by another. -/
def nestedReader (inner : Reader Value) : Reader Value where
  read text :=
    match readShape text with
    | .error e => .error e
    | .ok (shape, rest) => readMembersOf inner shape rest
  shrinks {text rest v} read := by
    split at read
    · cases read
    next found => exact Nat.lt_of_le_of_lt (readMembersOf_le read) (readShape_shrinks found)

/-- The reader of values with containers nested to a given depth. -/
def valueReader : Nat → Reader Value
  | 0 => scalarReader
  | depth + 1 => nestedReader (valueReader depth)

def depthLimit : Nat := 127

def Value.read (text : List Char) : Except Report Value := (valueReader depthLimit).document text

end TransactionLookup.Json
