import TransactionLookup.Text.Utf8

/-!
# Positions in a text

A place in a text given as a line, counted from one, and a column, counted in bytes from the start
of the line.
-/

namespace TransactionLookup.Text

/-- A line, from one, and the bytes between the start of the line and the place. -/
structure Position where
  line : Nat
  column : Nat
  deriving DecidableEq, Repr

/-- The place reached by one more character. -/
def Position.after (p : Position) (c : Char) : Position :=
  if c = '\n' then ⟨p.line + 1, 0⟩ else ⟨p.line, p.column + c.utf8Size⟩

/-- The place `bytes` bytes further on. A place inside a character counts the bytes of it that lie
before the place. -/
def Position.advance (p : Position) : Nat → List Char → Position
  | _, [] => p
  | bytes, c :: rest =>
    if c.utf8Size ≤ bytes then (p.after c).advance (bytes - c.utf8Size) rest
    else ⟨p.line, p.column + bytes⟩

/-- The place that many bytes into a text. -/
def Position.ofOffset (text : List Char) (bytes : Nat) : Position :=
  Position.advance ⟨1, 0⟩ bytes text

end TransactionLookup.Text
