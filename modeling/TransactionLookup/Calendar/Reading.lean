import TransactionLookup.Calendar.Instant
import TransactionLookup.Decimal.Natural
import TransactionLookup.Text.Blank
import TransactionLookup.Text.Utf8

/-!
# Reading instants

A lenient reader of RFC 3339 times. Beyond the strict form it takes numbers with fewer digits,
years with a sign, blanks around the parts, a space or `t` between date and time, `UTC` in any
case for the offset, and a minus sign U+2212. The parts are checked against their ranges as they
are read; whether the day exists, and whether the moment is in range, is decided last.
-/

namespace TransactionLookup.Calendar

/-- Why a text is not read as an instant. -/
inductive Unreadable
  /-- A part, the day of its month or the offset is outside its range. -/
  | outOfRange
  /-- The moment lies before the first instant or after the last. -/
  | impossible
  /-- A character that cannot stand where it does. -/
  | invalid
  /-- The text ends early. -/
  | premature
  /-- Something follows the time. -/
  | trailing
  deriving DecidableEq, Repr

def Unreadable.message : Unreadable → String
  | .outOfRange => "input is out of range"
  | .impossible => "no possible date and time matching input"
  | .invalid => "input contains invalid characters"
  | .premature => "premature end of input"
  | .trailing => "trailing input"

/-- Up to `width` leading digits of a text, at least one, and what follows them. -/
def readNumber (width : Nat) (text : List Char) : Except Unreadable (Nat × List Char) :=
  match (text.take width).takeWhile Char.isDigit with
  | [] => .error (if text = [] then .premature else .invalid)
  | d :: ds => .ok (Decimal.value (d :: ds), text.drop (ds.length + 1))

/-- A number after blanks, which has to lie between two bounds. -/
def readPart (low high : Nat) (text : List Char) : Except Unreadable (Nat × List Char) :=
  match readNumber 2 (Text.dropBlanks text) with
  | .error e => .error e
  | .ok (n, rest) => if low ≤ n ∧ n ≤ high then .ok (n, rest) else .error .outOfRange

/-- A year after blanks: up to four digits, or a sign and any number of digits. -/
def readYear (text : List Char) : Except Unreadable (Int × List Char) :=
  -- with a sign the year has as many digits as follow it, and must fit 32 bits
  let signed (negative : Bool) (rest : List Char) : Except Unreadable (Int × List Char) :=
    match readNumber rest.length rest with
    | .error e => .error e
    | .ok (n, rest) =>
      let year : Int := if negative then -n else n
      if -2147483648 ≤ year ∧ year ≤ 2147483647 then .ok (year, rest) else .error .outOfRange
  match Text.dropBlanks text with
  | '-' :: rest => signed true rest
  | '+' :: rest => signed false rest
  | text =>
    match readNumber 4 text with
    | .error e => .error e
    | .ok (n, rest) => .ok (n, rest)

/-- A given character after blanks. -/
def readMark (mark : Char) (text : List Char) : Except Unreadable (List Char) :=
  match Text.dropBlanks text with
  | [] => .error .premature
  | c :: rest => if c = mark then .ok rest else .error .invalid

/-- The character between date and time. -/
def readSeparator : List Char → Except Unreadable (List Char)
  | [] => .error .premature
  | c :: rest => if c = 'T' ∨ c = 't' ∨ c = ' ' then .ok rest else .error .invalid

/-- An optional fraction of a second, as nanoseconds. Digits after the ninth do not count. -/
def readFraction : List Char → Except Unreadable (Nat × List Char)
  | '.' :: text =>
    match readNumber 9 text with
    | .error e => .error e
    | .ok (n, rest) =>
      .ok (n * Nat.pow 10 (9 - (text.length - rest.length)), rest.dropWhile Char.isDigit)
  | text => .ok (0, text)

/-- Two digits. A text of less than two bytes ends early. -/
def readPair : List Char → Except Unreadable (Char × Char × List Char)
  | a :: b :: rest =>
    if a.isDigit ∧ b.isDigit then .ok (a, b, rest) else .error .invalid
  | text => .error (if Text.utf8Length text < 2 then .premature else .invalid)

/-- An offset from universal time, in seconds. -/
def readOffset (text : List Char) : Except Unreadable (Int × List Char) :=
  let numeric (negative : Bool) (rest : List Char) : Except Unreadable (Int × List Char) :=
    match readPair rest with
    | .error e => .error e
    | .ok (h, h', rest) =>
      match readPair (rest.dropWhile fun c => c == ':' || Text.isBlank c) with
      | .error e => .error e
      | .ok (m, m', rest) =>
        -- the hours have no bound of their own here
        if '6' ≤ m then .error .outOfRange
        else
          let size : Int :=
            ((Decimal.value [h, h'] * 3600 + Decimal.value [m, m'] * 60 : Nat) : Int)
          .ok (if negative then -size else size, rest)
  match text with
  | u :: t :: c :: rest =>
    if u.toUpper = 'U' ∧ t.toUpper = 'T' ∧ c.toUpper = 'C' then .ok (0, rest)
    else zoned numeric (u :: t :: c :: rest)
  | text => zoned numeric text
where
  zoned (numeric : Bool → List Char → Except Unreadable (Int × List Char)) :
      List Char → Except Unreadable (Int × List Char)
    | [] => .error .premature
    | 'Z' :: rest | 'z' :: rest => .ok (0, rest)
    | '+' :: rest => numeric false rest
    | '-' :: rest | '\u2212' :: rest => numeric true rest
    | _ => .error .invalid

/-- A date and a time of day as they are written, with the offset of their clock. -/
structure Local where
  date : Date
  hour : Nat
  minute : Nat
  second : Nat
  nanos : Nat
  offset : Int
  deriving DecidableEq, Repr

/-- The parts of a written time, and the text after them. -/
def readLocal (text : List Char) : Except Unreadable (Local × List Char) := do
  let (year, text) ← readYear text
  let text ← readMark '-' text
  let (month, text) ← readPart 1 12 text
  let text ← readMark '-' text
  let (day, text) ← readPart 1 31 text
  let text ← readSeparator text
  let (hour, text) ← readPart 0 23 text
  let text ← readMark ':' text
  let (minute, text) ← readPart 0 59 text
  let text ← readMark ':' text
  let (second, text) ← readPart 0 60 text
  let (nanos, text) ← readFraction text
  let (offset, text) ← readOffset (Text.dropBlanks text)
  .ok (⟨⟨year, month, day⟩, hour, minute, second, nanos, offset⟩, text)

/-- The instant that a written time names. The second 60 runs on from the second 59. -/
def Local.instant (l : Local) : Except Unreadable Instant :=
  if firstYear ≤ l.date.year ∧ l.date.year ≤ lastYear ∧ l.date.Exists ∧
      -86400 < l.offset ∧ l.offset < 86400 then
    let ofDay := l.hour * 3600 + l.minute * 60 + min l.second 59
    -- a leap second is kept with the second before it
    let nanos := if l.second = 60 then l.nanos + Calendar.second else l.nanos
    match Instant.of? (l.date.toDays * 86400 + ofDay - l.offset) nanos with
    | some t => .ok t
    | none => .error .impossible
  else .error .outOfRange

def Instant.read (text : List Char) : Except Unreadable Instant :=
  match readLocal text with
  | .error e => .error e
  | .ok (l, rest) => if Text.dropBlanks rest = [] then l.instant else .error .trailing

end TransactionLookup.Calendar
