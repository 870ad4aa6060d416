import TransactionLookup.Calendar.Rfc3339
import TransactionLookup.Json.Value

/-!
# Timestamps

The time of a record: an instant that was given, or the reading of the clock when the record was
made. What the clock read is no part of a record's description, and is shown by a placeholder. So all
readings are one value, and records with the clock's time that were made at different moments can be
equal: what is said of them holds up to what the clock read.
-/

namespace TransactionLookup

inductive Timestamp
  /-- A reading of the clock, whenever it was taken. -/
  | clock
  | given (t : Calendar.Instant)
  deriving DecidableEq, Repr

namespace Timestamp

/-- What stands for a reading of the clock. -/
def clockText : List Char := ['<', 'n', 'o', 'w', '>']

def text : Timestamp → List Char
  | clock => clockText
  | given t => t.text

def json (t : Timestamp) : List Char := Json.quote t.text

/-- The reader of a given time. -/
def reader : Json.Reader Timestamp := Json.instantLeaf.reader.map given

def ofValue (value : Json.Value) : Except Json.Problem Timestamp :=
  (Json.instantLeaf.ofValue value).map given

/-- The timestamp with what the clock read in the place of the clock. -/
def stamp (now : Calendar.Instant) : Timestamp → Timestamp
  | clock => given now
  | given t => given t

end Timestamp

end TransactionLookup
