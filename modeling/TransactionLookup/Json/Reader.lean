import TransactionLookup.Json.Numeral
import TransactionLookup.Json.Quoted

/-!
# Readers

A reader takes a value from the start of a text and leaves a shorter text, which is what lets a loop
over the members of a container end. This module reads what all values begin with, plain values, and
the two containers with a reader of their members.
-/

namespace TransactionLookup.Json

/-- Whether a character may stand between the parts of a document. -/
def isSpace (c : Char) : Bool := c == ' ' || c == '\n' || c == '\t' || c == '\r'

def dropSpace (text : List Char) : List Char := text.dropWhile isSpace

theorem length_dropSpace_le (text : List Char) : (dropSpace text).length ≤ text.length :=
  (List.dropWhile_suffix isSpace).length_le

theorem length_lt_of_dropSpace {text rest : List Char} {c : Char}
    (start : dropSpace text = c :: rest) : rest.length < text.length := by
  have bound := length_dropSpace_le text
  rw [start, List.length_cons] at bound
  omega

/-- A reader of a value that leaves a shorter text. -/
structure Reader (α : Type) where
  read : List Char → Except Failure (α × List Char)
  shrinks : ∀ {text rest : List Char} {a : α}, read text = .ok (a, rest) → rest.length < text.length

/-- Passes a word, its first letter already read. -/
def readWord (word text : List Char) : Except Failure (List Char) :=
  match word, text with
  | [], text => .ok text
  | _ :: _, [] => .error (.here .endInValue [])
  | w :: word, c :: rest =>
    if c = w then readWord word rest else .error (.next .wordExpected (c :: rest))

/-- A scalar that is a word. -/
def readNamed (scalar : Scalar) (word text : List Char) : Except Failure (Shape × List Char) :=
  match readWord word text with
  | .error e => .error e
  | .ok rest => .ok (.scalar scalar, rest)

/-- What the value at the start of a text is: a scalar, or a container with its bracket read. -/
def readShape (text : List Char) : Except Failure (Shape × List Char) :=
  match dropSpace text with
  | [] => .error (.next .endInValue [])
  | 'n' :: rest => readNamed .null ['u', 'l', 'l'] rest
  | 't' :: rest => readNamed (.boolean true) ['r', 'u', 'e'] rest
  | 'f' :: rest => readNamed (.boolean false) ['a', 'l', 's', 'e'] rest
  | '"' :: rest =>
    match readQuoted rest with
    | .error e => .error e
    | .ok (cs, rest) => .ok (.scalar (.text (String.ofList cs)), rest)
  | '[' :: rest => .ok (.sequence, rest)
  | '{' :: rest => .ok (.map, rest)
  | c :: rest =>
    if c = '-' ∨ c.isDigit then
      match Number.read (c :: rest) with
      | .error e => .error e
      | .ok (n, rest) => .ok (.scalar (.number n), rest)
    else .error (.next .valueExpected (c :: rest))

/-- The text that a complaint about a shape leaves: a scalar is read, a bracket is not. -/
def Shape.left (shape : Shape) (rest : List Char) : List Char :=
  match shape with
  | .scalar _ => rest
  | .sequence => '[' :: rest
  | .map => '{' :: rest

theorem readWord_le {word text rest : List Char} (read : readWord word text = .ok rest) :
    rest.length ≤ text.length := by
  fun_induction readWord word text with
  | case1 => simp at read; simp [read]
  | case2 => cases read
  | case3 _ _ _ ih =>
    have := ih read
    simp only [List.length_cons]
    omega
  | case4 => cases read

theorem readNamed_le {scalar : Scalar} {word text rest : List Char} {shape : Shape}
    (read : readNamed scalar word text = .ok (shape, rest)) : rest.length ≤ text.length := by
  unfold readNamed at read
  split at read
  · cases read
  next found =>
    cases read
    exact readWord_le found

theorem readShape_shrinks {text rest : List Char} {shape : Shape}
    (read : readShape text = .ok (shape, rest)) : rest.length < text.length := by
  unfold readShape at read
  split at read
  · cases read
  next start => exact Nat.lt_of_le_of_lt (readNamed_le read) (length_lt_of_dropSpace start)
  next start => exact Nat.lt_of_le_of_lt (readNamed_le read) (length_lt_of_dropSpace start)
  next start => exact Nat.lt_of_le_of_lt (readNamed_le read) (length_lt_of_dropSpace start)
  next start =>
    split at read
    · cases read
    next found =>
      cases read
      exact Nat.lt_trans (readQuoted_shrinks found) (length_lt_of_dropSpace start)
  next start =>
    cases read
    exact length_lt_of_dropSpace start
  next start =>
    cases read
    exact length_lt_of_dropSpace start
  next start =>
    split at read
    · split at read
      · cases read
      next found =>
        cases read
        exact Nat.lt_of_lt_of_le (Number.read_shrinks found)
          (start ▸ length_dropSpace_le text)
    · cases read

/-- How a value that is a scalar is understood. -/
structure Leaf (α : Type) where
  expected : Expectation
  interpret : Scalar → Except Problem α

/-- The value of a leaf with a given shape, which cannot be a container. -/
def Leaf.ofShape (leaf : Leaf α) : Shape → Except Problem α
  | .scalar s => leaf.interpret s
  | shape => .error (.wrongType shape leaf.expected)

def textLeaf : Leaf String where
  expected := .text
  interpret
    | .text s => .ok s
    | s => .error (.wrongType (.scalar s) .text)

/-- A natural number of at most 64 bits. -/
def naturalLeaf : Leaf UInt64 where
  expected := .natural
  interpret
    | .number (.natural n) => .ok n
    | .number (.negative n) => .error (.wrongValue (.scalar (.number (.negative n))) .natural)
    | s => .error (.wrongType (.scalar s) .natural)

def unitLeaf : Leaf Unit where
  expected := .unit
  interpret
    | .null => .ok ()
    | s => .error (.wrongType (.scalar s) .unit)

def instantLeaf : Leaf Calendar.Instant where
  expected := .instant
  interpret
    | .text s => (Calendar.Instant.read s.toList).mapError .unreadableTime
    | s => .error (.wrongType (.scalar s) .instant)

def Leaf.reader (leaf : Leaf α) : Reader α where
  read text :=
    match readShape text with
    | .error e => .error e
    | .ok (shape, rest) =>
      match leaf.ofShape shape with
      | .error p => .error (.here p (shape.left rest))
      | .ok a => .ok (a, rest)
  shrinks {text rest a} read := by
    split at read
    · cases read
    next found =>
      split at read
      · cases read
      · cases read
        exact readShape_shrinks found

/-- The reader of a value made from another. -/
def Reader.map (f : α → β) (reader : Reader α) : Reader β where
  read text :=
    match reader.read text with
    | .error e => .error e
    | .ok (a, rest) => .ok (f a, rest)
  shrinks {text rest b} read := by
    split at read
    · cases read
    next found =>
      cases read
      exact reader.shrinks found

/-- What comes next in a container: a member, or the bracket that closes it. -/
inductive Next (α : Type)
  | member (a : α) (rest : List Char)
  | close (rest : List Char)

/-- What comes next in a list. Every element but the first follows a comma. -/
def nextElement (first : Bool) (text : List Char) : Except Failure (Next Unit) :=
  match dropSpace text with
  | [] => .error (.next .endInList [])
  | ']' :: rest => .ok (.close rest)
  | c :: rest =>
    -- the first element follows the bracket at once
    if first then .ok (.member () (c :: rest))
    else if c = ',' then
      match dropSpace rest with
      | [] => .error (.next .endInValue [])
      | ']' :: rest => .error (.next .trailingComma (']' :: rest))
      | text => .ok (.member () text)
    else .error (.next .listEndExpected (c :: rest))

/-- A key, its opening quote not yet read. -/
def readKey (text : List Char) : Except Failure (Next String) :=
  match text with
  | '"' :: rest =>
    match readQuoted rest with
    | .error e => .error e
    | .ok (cs, rest) => .ok (.member (String.ofList cs) rest)
  | _ => .error (.next .keyNotText text)

/-- What comes next in an object. Every key but the first follows a comma. -/
def nextKey (first : Bool) (text : List Char) : Except Failure (Next String) :=
  match dropSpace text with
  | [] => .error (.next .endInObject [])
  | '}' :: rest => .ok (.close rest)
  | c :: rest =>
    if first then readKey (c :: rest)
    else if c = ',' then
      match dropSpace rest with
      | [] => .error (.next .endInValue [])
      | '}' :: rest => .error (.next .trailingComma ('}' :: rest))
      | text => readKey text
    else .error (.next .objectEndExpected (c :: rest))

/-- Passes the colon between a key and its value. -/
def readColon (text : List Char) : Except Failure (List Char) :=
  match dropSpace text with
  | [] => .error (.next .endInObject [])
  | ':' :: rest => .ok rest
  | text => .error (.next .colonExpected text)

theorem nextElement_le {first : Bool} {text rest : List Char}
    (next : nextElement first text = .ok (.member () rest)) : rest.length ≤ text.length := by
  have bound := length_dropSpace_le text
  unfold nextElement at next
  split at next
  · cases next
  · cases next
  next start =>
    rw [start, List.length_cons] at bound
    split at next
    · cases next; simp [bound]
    · split at next
      next tail _ _ _ =>
        have inner := length_dropSpace_le tail
        split at next
        · cases next
        · cases next
        · cases next
          omega
      · cases next

theorem nextElement_close {first : Bool} {text rest : List Char}
    (next : nextElement first text = .ok (.close rest)) : rest.length < text.length := by
  unfold nextElement at next
  split at next
  · cases next
  next start => cases next; exact length_lt_of_dropSpace start
  · split at next
    · cases next
    · split at next
      · split at next <;> cases next
      · cases next

theorem readKey_shrinks {text rest : List Char} {name : String}
    (key : readKey text = .ok (.member name rest)) : rest.length < text.length := by
  unfold readKey at key
  split at key
  · split at key
    · cases key
    next found =>
      simp only [Except.ok.injEq, Next.member.injEq] at key
      have := readQuoted_shrinks found
      rw [← key.2]
      simp only [List.length_cons]
      omega
  · cases key

theorem readKey_ne_close {text rest : List Char} : readKey text ≠ .ok (.close rest) := by
  unfold readKey
  split
  · split <;> simp
  · simp

theorem nextKey_shrinks {first : Bool} {text rest : List Char} {name : String}
    (next : nextKey first text = .ok (.member name rest)) : rest.length < text.length := by
  have bound := length_dropSpace_le text
  unfold nextKey at next
  split at next
  · cases next
  · cases next
  next start =>
    rw [start, List.length_cons] at bound
    split at next
    · have := readKey_shrinks next
      rw [List.length_cons] at this
      omega
    · split at next
      next tail _ _ _ =>
        have inner := length_dropSpace_le tail
        split at next
        · cases next
        · cases next
        · have := readKey_shrinks next
          omega
      · cases next

theorem nextKey_close {first : Bool} {text rest : List Char}
    (next : nextKey first text = .ok (.close rest)) : rest.length < text.length := by
  unfold nextKey at next
  split at next
  · cases next
  next start => cases next; exact length_lt_of_dropSpace start
  · split at next
    · exact absurd next readKey_ne_close
    · split at next
      · split at next
        · cases next
        · cases next
        · exact absurd next readKey_ne_close
      · cases next

theorem readColon_shrinks {text rest : List Char} (colon : readColon text = .ok rest) :
    rest.length < text.length := by
  unfold readColon at colon
  split at colon
  · cases colon
  next start => cases colon; exact length_lt_of_dropSpace start
  · cases colon

/-- The elements of a list up to its closing bracket. -/
def readElements (item : Reader α) (first : Bool) (text : List Char) :
    Except Failure (List α × List Char) :=
  match next : nextElement first text with
  | .error e => .error e
  | .ok (.close rest) => .ok ([], rest)
  | .ok (.member () start) =>
    match read : item.read start with
    | .error e => .error e
    | .ok (a, rest) =>
      have := nextElement_le next
      have := item.shrinks read
      match readElements item false rest with
      | .error e => .error e
      | .ok (as, left) => .ok (a :: as, left)
termination_by text.length

/-- The members of an object up to its closing bracket, each of which changes a state. The reader of
a member starts after its key. -/
def readMembers (step : String → σ → Reader σ) (first : Bool) (state : σ) (text : List Char) :
    Except Failure (σ × List Char) :=
  match next : nextKey first text with
  | .error e => .error e
  | .ok (.close rest) => .ok (state, rest)
  | .ok (.member name start) =>
    match read : (step name state).read start with
    | .error e => .error e
    | .ok (state', rest) =>
      have := nextKey_shrinks next
      have := (step name state).shrinks read
      readMembers step false state' rest
termination_by text.length

theorem readElements_shrinks {item : Reader α} {first : Bool} {text rest : List Char}
    {as : List α} (read : readElements item first text = .ok (as, rest)) :
    rest.length < text.length := by
  fun_induction readElements item first text generalizing as rest with
  | case1 => cases read
  | case2 _ _ _ next =>
    cases read
    exact nextElement_close next
  | case3 => cases read
  | case4 => cases read
  | case5 _ _ _ next _ _ found _ _ _ _ inner ih =>
    have := nextElement_le next
    have := item.shrinks found
    have := ih inner
    cases read
    omega

theorem readMembers_shrinks {step : String → σ → Reader σ} {first : Bool} {state final : σ}
    {text rest : List Char} (read : readMembers step first state text = .ok (final, rest)) :
    rest.length < text.length := by
  fun_induction readMembers step first state text with
  | case1 => cases read
  | case2 _ _ _ _ next =>
    cases read
    exact nextKey_close next
  | case3 => cases read
  | case4 _ state _ name _ next _ _ found _ _ ih =>
    have := nextKey_shrinks next
    have := (step name state).shrinks found
    have := ih read
    omega

def listReader (item : Reader α) : Reader (List α) where
  read text :=
    match readShape text with
    | .error e => .error e
    | .ok (.sequence, rest) => readElements item true rest
    | .ok (shape, rest) => .error (.here (.wrongType shape .sequence) (shape.left rest))
  shrinks {text rest as} read := by
    split at read
    · cases read
    next found => exact Nat.lt_trans (readElements_shrinks read) (readShape_shrinks found)
    · cases read

/-- The value that a whole text holds. -/
def Reader.document (reader : Reader α) (text : List Char) : Except Report α :=
  match reader.read text with
  | .error e => .error (e.report text)
  | .ok (a, rest) =>
    match dropSpace rest with
    | [] => .ok a
    | rest => .error ((Failure.next .trailingCharacters rest).report text)

end TransactionLookup.Json
