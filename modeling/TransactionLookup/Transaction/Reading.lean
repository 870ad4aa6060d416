import TransactionLookup.Json.Skip
import TransactionLookup.Transaction.Field

/-!
# Reading records

A record is an object with its fields for members, in any order, among members that do not matter;
or a list with the contents of its first fields in their order. Each form is read in two ways: from
the text itself, and from the tree of a value that was read before.
-/

namespace TransactionLookup

/-- The problem that an object gives no hash. -/
def hashMissing : Json.Problem := .missingField Field.hash.name

/-- The problem that a list gives no hash. -/
def noElements : Json.Problem := .wrongLength 0 .recordElements

/-- The record of a draft, or the problem that it has no hash. -/
def Draft.record (missing : Json.Problem) (d : Draft) : Except Json.Problem Record :=
  match d.record? with
  | some r => .ok r
  | none => .error missing

/-- The text after the end of an object, if the object ends here. -/
def afterObject (text : List Char) : List Char :=
  match Json.dropSpace text with
  | '}' :: rest => rest
  | text => text

/-- The reader that refuses a second member for a field. The object is left first, if it ends. -/
def repeatedReader (f : Field) : Json.Reader Draft where
  read text := .error (.here (.duplicateField f.name) (afterObject text))
  shrinks read := by simp at read

/-- The reader of a member that is no field of a record. -/
def otherReader (draft : Draft) : Json.Reader Draft :=
  (Json.afterColon Json.skipReader).map fun _ => draft

/-- The reader of the content of a field that is not known yet. -/
def fieldReader (f : Field) (draft : Draft) : Json.Reader Draft :=
  (Json.afterColon f.reader).map (draft.put f)

/-- The reader of a member of a record, its key already read. -/
def memberReader (name : String) (draft : Draft) : Json.Reader Draft :=
  match Field.ofName? name with
  | none => otherReader draft
  | some f =>
    -- a repeated field is refused before its value is looked at
    match draft f with
    | none => fieldReader f draft
    | some _ => repeatedReader f

/-- The end of a list that has all fields. -/
def readListEnd (text : List Char) : Except Json.Failure (List Char) :=
  match Json.dropSpace text with
  | [] => .error (.next .endInList [])
  | ']' :: rest => .ok rest
  | ',' :: rest =>
    match Json.dropSpace rest with
    | ']' :: rest => .error (.next .trailingComma (']' :: rest))
    | text => .error (.next .trailingCharacters text)
  | text => .error (.next .trailingCharacters text)

/-- The elements of a list that gives the fields of a record in their order. -/
def readElements (fields : List Field) (first : Bool) (draft : Draft) (text : List Char) :
    Except Json.Failure (Draft × List Char) :=
  match fields with
  | [] =>
    match readListEnd text with
    | .error e => .error e
    | .ok rest => .ok (draft, rest)
  | f :: fields =>
    match Json.nextElement first text with
    | .error e => .error e
    | .ok (.close rest) => .ok (draft, rest)
    | .ok (.member () start) =>
      match f.reader.read start with
      | .error e => .error e
      | .ok (content, rest) => readElements fields false (draft.put f content) rest

theorem readListEnd_shrinks {text rest : List Char} (read : readListEnd text = .ok rest) :
    rest.length < text.length := by
  unfold readListEnd at read
  split at read
  · cases read
  next start => cases read; exact Json.length_lt_of_dropSpace start
  · split at read <;> cases read
  · cases read

theorem readElements_shrinks {fields : List Field} {first : Bool} {draft final : Draft}
    {text rest : List Char} (read : readElements fields first draft text = .ok (final, rest)) :
    rest.length < text.length := by
  fun_induction readElements fields first draft text with
  | case1 => cases read
  | case2 _ _ _ _ close =>
    cases read
    exact readListEnd_shrinks close
  | case3 => cases read
  | case4 _ _ _ _ _ _ close =>
    cases read
    exact Json.nextElement_close close
  | case5 => cases read
  | case6 _ _ _ f _ _ next _ _ found ih =>
    have := Json.nextElement_le next
    have := f.reader.shrinks found
    have := ih read
    omega

/-- The draft that the container at the start of a text gives, and what is missing without a hash. -/
def readDraft (text : List Char) :
    Except Json.Failure ((Draft × Json.Problem) × List Char) :=
  match Json.readShape text with
  | .error e => .error e
  | .ok (.map, rest) =>
    match Json.readMembers memberReader true .empty rest with
    | .error e => .error e
    | .ok (draft, rest) => .ok ((draft, hashMissing), rest)
  | .ok (.sequence, rest) =>
    match readElements Field.all true .empty rest with
    | .error e => .error e
    | .ok (draft, rest) => .ok ((draft, noElements), rest)
  | .ok (.scalar s, rest) => .error (.here (.wrongType (.scalar s) .record) rest)

theorem readDraft_shrinks {text rest : List Char} {found : Draft × Json.Problem}
    (read : readDraft text = .ok (found, rest)) : rest.length < text.length := by
  unfold readDraft at read
  split at read
  · cases read
  next shape =>
    split at read
    · cases read
    next members =>
      cases read
      exact Nat.lt_trans (Json.readMembers_shrinks members) (Json.readShape_shrinks shape)
  next shape =>
    split at read
    · cases read
    next elements =>
      cases read
      exact Nat.lt_trans (readElements_shrinks elements) (Json.readShape_shrinks shape)
  · cases read

namespace Record

def reader : Json.Reader Record where
  read text :=
    match readDraft text with
    | .error e => .error e
    | .ok ((draft, missing), rest) =>
      match draft.record missing with
      | .error p => .error (.here p rest)
      | .ok r => .ok (r, rest)
  shrinks {text rest r} read := by
    split at read
    · cases read
    next found =>
      split at read
      · cases read
      · cases read
        exact readDraft_shrinks found

def read (text : List Char) : Except Json.Report Record := reader.document text

/-- Whether a record that is written and read again is the same, the clock having read `now`. -/
def readsBack (now : Calendar.Instant) (r : Record) : Except Json.Report Bool :=
  match read (r.stamp now).json with
  | .error report => .error report
  | .ok back => .ok (back = r.stamp now)

def readAll (text : List Char) : Except Json.Report (List Record) :=
  (Json.listReader reader).document text

end Record

/-- The draft with a member of an object, if it is a field. -/
def Draft.putMember (draft : Draft) (name : String) (value : Json.Value) :
    Except Json.Problem Draft :=
  match Field.ofName? name with
  | none => .ok draft
  | some f =>
    match f.ofValue value with
    | .error p => .error p
    | .ok content => .ok (draft.put f content)

def Draft.putMembers (draft : Draft) :
    List (String × Json.Value) → Except Json.Problem Draft
  | [] => .ok draft
  | (name, value) :: members =>
    match draft.putMember name value with
    | .error p => .error p
    | .ok draft => draft.putMembers members

/-- The draft with values for fields in their order, and the values that are left. -/
def Draft.putElements (draft : Draft) :
    List Field → List Json.Value → Except Json.Problem (Draft × List Json.Value)
  | f :: fields, value :: values =>
    match f.ofValue value with
    | .error p => .error p
    | .ok content => (draft.put f content).putElements fields values
  | _, values => .ok (draft, values)

namespace Record

def ofValue (value : Json.Value) : Except Json.Problem Record :=
  match value with
  | .map members =>
    match Draft.empty.putMembers (Json.settled members) with
    | .error p => .error p
    | .ok draft => draft.record hashMissing
  | .sequence items =>
    match Draft.empty.putElements Field.all items with
    | .error p => .error p
    | .ok (draft, left) =>
      match draft.record noElements with
      | .error p => .error p
      | .ok r => if left = [] then .ok r else .error (.wrongLength items.length .noMoreElements)
  | value => .error (.wrongType value.shape .record)

def listOfValue (value : Json.Value) : Except Json.Problem (List Record) :=
  match value with
  | .sequence items => items.mapM ofValue
  | value => .error (.wrongType value.shape .sequence)

end Record

end TransactionLookup
