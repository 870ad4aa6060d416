import TransactionLookup.Calendar.Reading
import TransactionLookup.Json.Scalar
import TransactionLookup.Text.Position

/-!
# Problems of a document

What can be wrong with a text that should hold a value: its form, or the value that it holds. A
problem met while reading has a place in the text; one met in a value that was read before has none.
-/

namespace TransactionLookup.Json

/-- What a reader takes in the place of what it found. -/
inductive Expectation
  | text
  | natural
  | unit
  | sequence
  | instant
  /-- The object form or the array form of a record. -/
  | record
  /-- The array form of a record, with at least its first element. -/
  | recordElements
  /-- No elements after the last one known. -/
  | noMoreElements
  /-- A name, or an object with the name for its key. -/
  | nameOrMap
  | singleKey
  deriving DecidableEq, Repr

def Expectation.message : Expectation → String
  | .text => "a string"
  | .natural => "u64"
  | .unit => "unit"
  | .sequence => "a sequence"
  | .instant => "an RFC 3339 formatted date and time string"
  | .record => "struct TxRecord"
  | .recordElements => "struct TxRecord with 12 elements"
  | .noMoreElements => "fewer elements in array"
  | .nameOrMap => "string or map"
  | .singleKey => "map with a single key"

/-- What is wrong with a text or a value. -/
inductive Problem
  | endInList
  | endInObject
  | endInString
  | endInValue
  | colonExpected
  | listEndExpected
  | objectEndExpected
  | wordExpected
  | valueExpected
  | invalidEscape
  | invalidNumber
  | numberOutOfRange
  | controlCharacter
  | keyNotText
  | loneSurrogate
  | unpairedSurrogate
  | trailingComma
  | trailingCharacters
  | tooDeep
  | wrongType (found : Shape) (expected : Expectation)
  | wrongValue (found : Shape) (expected : Expectation)
  | wrongLength (length : Nat) (expected : Expectation)
  | missingField (name : String)
  | duplicateField (name : String)
  | unknownName (name : String) (known : List String)
  | unreadableTime (cause : Calendar.Unreadable)

/-- Names between backquotes, with a comma between two. -/
def quotedNames (names : List String) : String :=
  ", ".intercalate (names.map fun name => "`" ++ name ++ "`")

def Problem.message : Problem → String
  | .endInList => "EOF while parsing a list"
  | .endInObject => "EOF while parsing an object"
  | .endInString => "EOF while parsing a string"
  | .endInValue => "EOF while parsing a value"
  | .colonExpected => "expected `:`"
  | .listEndExpected => "expected `,` or `]`"
  | .objectEndExpected => "expected `,` or `\x7d`"
  | .wordExpected => "expected ident"
  | .valueExpected => "expected value"
  | .invalidEscape => "invalid escape"
  | .invalidNumber => "invalid number"
  | .numberOutOfRange => "number out of range"
  | .controlCharacter => "control character (\\u0000-\\u001F) found while parsing a string"
  | .keyNotText => "key must be a string"
  | .loneSurrogate => "lone leading surrogate in hex escape"
  | .unpairedSurrogate => "unexpected end of hex escape"
  | .trailingComma => "trailing comma"
  | .trailingCharacters => "trailing characters"
  | .tooDeep => "recursion limit exceeded"
  | .wrongType found expected =>
    "invalid type: " ++ found.describe ++ ", expected " ++ expected.message
  | .wrongValue found expected =>
    "invalid value: " ++ found.describe ++ ", expected " ++ expected.message
  | .wrongLength length expected =>
    "invalid length " ++ String.ofList (Decimal.digits length) ++ ", expected " ++ expected.message
  | .missingField name => "missing field `" ++ name ++ "`"
  | .duplicateField name => "duplicate field `" ++ name ++ "`"
  | .unknownName name known =>
    "unknown variant `" ++ name ++ "`, expected one of " ++ quotedNames known
  | .unreadableTime cause => cause.message

/-- A problem and where it was met: `ahead` bytes after the start of the text that was left. -/
structure Failure where
  problem : Problem
  left : List Char
  ahead : Nat

/-- A problem that is noticed before the next character is read. -/
def Failure.here (problem : Problem) (left : List Char) : Failure := ⟨problem, left, 0⟩

/-- A problem with the character that comes next, if there is one. -/
def Failure.next (problem : Problem) (left : List Char) : Failure := ⟨problem, left, 1⟩

/-- The place of a failure, in bytes from the start of the text. It is never past the end. -/
def Failure.offset (f : Failure) (text : List Char) : Nat :=
  min (Text.utf8Length text - Text.utf8Length f.left + f.ahead) (Text.utf8Length text)

/-- A problem as it is reported, with its place if it has one. -/
structure Report where
  problem : Problem
  place : Option Text.Position

def Failure.report (f : Failure) (text : List Char) : Report :=
  ⟨f.problem, some (Text.Position.ofOffset text (f.offset text))⟩

def Report.message (r : Report) : String :=
  match r.place with
  | none => r.problem.message
  | some p =>
    r.problem.message ++ " at line " ++ String.ofList (Decimal.digits p.line) ++
      " column " ++ String.ofList (Decimal.digits p.column)

end TransactionLookup.Json
