import TransactionLookup.Json.Problem

/-!
# Numerals

A number as it is written: a sign, digits, a fraction and a power of ten. Reading a numeral and
finding the number that it stands for are two steps, and one who skips a numeral takes the first
only.

At most 64 bits of the digits count. What follows them moves the power of ten while it stands
before the point, and is dropped after it.
-/

namespace TransactionLookup.Json

/-- The parts of a number as written. -/
structure Numeral where
  negative : Bool
  whole : List Char
  fraction : Option (List Char)
  /-- Whether the power of ten is negative, and its digits. -/
  exponent : Option (Bool × List Char)
  deriving DecidableEq, Repr

/-- The leading digits of a text, and what follows them. -/
def spanDigits (text : List Char) : List Char × List Char :=
  (text.takeWhile Char.isDigit, text.dropWhile Char.isDigit)

/-- At least one digit. A text that ends before it has the problem `atEnd`. -/
def readDigits (atEnd : Problem) (text : List Char) : Except Failure (List Char × List Char) :=
  match text with
  | [] => .error (.here atEnd [])
  | c :: _ => if c.isDigit then .ok (spanDigits text) else .error (.next .invalidNumber text)

/-- The digits before the point. A leading zero stands alone. -/
def readWhole (atEnd : Problem) (text : List Char) : Except Failure (List Char × List Char) :=
  match text with
  | '0' :: rest =>
    match rest with
    | c :: _ => if c.isDigit then .error (.next .invalidNumber rest) else .ok (['0'], rest)
    | [] => .ok (['0'], [])
  | _ => readDigits atEnd text

def readFraction (atEnd : Problem) (text : List Char) :
    Except Failure (Option (List Char) × List Char) :=
  match text with
  | '.' :: rest =>
    match readDigits atEnd rest with
    | .error e => .error e
    | .ok (ds, rest) => .ok (some ds, rest)
  | _ => .ok (none, text)

/-- The sign of a power of ten: whether it is a minus. -/
def readSign : List Char → Bool × List Char
  | '+' :: rest => (false, rest)
  | '-' :: rest => (true, rest)
  | text => (false, text)

def readExponent (atEnd : Problem) (text : List Char) :
    Except Failure (Option (Bool × List Char) × List Char) :=
  match text with
  | c :: rest =>
    if c = 'e' ∨ c = 'E' then
      match readDigits atEnd (readSign rest).2 with
      | .error e => .error e
      | .ok (ds, rest') => .ok (some ((readSign rest).1, ds), rest')
    else .ok (none, text)
  | [] => .ok (none, [])

def readUnsigned (atEnd : Problem) (negative : Bool) (text : List Char) :
    Except Failure (Numeral × List Char) :=
  match readWhole atEnd text with
  | .error e => .error e
  | .ok (whole, text) =>
    match readFraction atEnd text with
    | .error e => .error e
    | .ok (fraction, text) =>
      match readExponent atEnd text with
      | .error e => .error e
      | .ok (exponent, text) => .ok (⟨negative, whole, fraction, exponent⟩, text)

def Numeral.read (atEnd : Problem) (text : List Char) : Except Failure (Numeral × List Char) :=
  match text with
  | '-' :: rest => readUnsigned atEnd true rest
  | _ => readUnsigned atEnd false text

/-- Extends a number by digits as long as it stays below a limit, and gives the digits left. -/
def absorb (limit n : Nat) : List Char → Nat × List Char
  | [] => (n, [])
  | d :: ds =>
    if 10 * n + Decimal.digitValue d < limit then absorb limit (10 * n + Decimal.digitValue d) ds
    else (n, d :: ds)

/-- A power of ten that a double can hold. -/
def tenTo (exponent : Nat) : Float := Float.ofScientific 1 false exponent

/-- The greatest power of ten that a double can hold. -/
def greatestPower : Nat := 308

/-- Divides by a power of ten of any size, in steps that a double can hold. -/
def scaleDown (x : Float) (exponent : Nat) : Float :=
  if exponent ≤ greatestPower then x / tenTo exponent
  else if x == 0 then x
  else scaleDown (x / tenTo greatestPower) (exponent - greatestPower)
termination_by exponent
decreasing_by simp only [greatestPower] at *; omega

/-- The double nearest to a significand times a power of ten, up to the rounding of each of the two
factors and of their product. There is none beyond the greatest double. -/
def scale (significand : Nat) (exponent : Int) : Option Float :=
  let x := significand.toUInt64.toFloat
  if exponent < 0 then some (scaleDown x exponent.natAbs)
  else if exponent.toNat ≤ greatestPower then
    let y := x * tenTo exponent.toNat
    if y.isInf then none else some y
  else if x == 0 then some x
  else none

/-- The number of words of 64 bits. -/
def wordLimit : Nat := 18446744073709551616

/-- The size of the least negative number of 64 bits. -/
def negativeLimit : Nat := 9223372036854775808

/-- The number of powers of ten that are told apart. -/
def powerLimit : Nat := 2147483648

/-- The number that a numeral stands for. For a number out of range, the last digits of the power
of ten that were not needed to tell that. -/
def Numeral.number (n : Numeral) : Except (List Char) Number :=
  let whole := absorb wordLimit 0 n.whole
  let signed (x : Float) : Number := .real (if n.negative then -x else x)
  match n.fraction, n.exponent, whole.2 with
  | none, none, [] =>
    if !n.negative then .ok (.natural whole.1.toUInt64)
    else if 0 < whole.1 ∧ whole.1 ≤ negativeLimit then .ok (.negative (whole.1 - 1))
    else .ok (signed whole.1.toUInt64.toFloat)
  | fraction, exponent, dropped =>
    let digits := fraction.getD []
    let full := absorb wordLimit whole.1 digits
    -- each digit dropped before the point is a power of ten more, each one taken after it one less
    let start : Int := (dropped.length : Int) - (digits.length - full.2.length : Nat)
    let (negative, written) := exponent.getD (false, [])
    let power := absorb powerLimit 0 written
    match power.2 with
    | [] =>
      match scale full.1 (if negative then start - power.1 else start + power.1) with
      | some x => .ok (signed x)
      | none => .error []
    -- a power of ten beyond all that are told apart makes zero, or a number out of range
    | _ :: surplus =>
      if full.1 = 0 ∨ negative then .ok (signed 0) else .error surplus

def Number.read (text : List Char) : Except Failure (Number × List Char) :=
  match Numeral.read .endInValue text with
  | .error e => .error e
  | .ok (numeral, rest) =>
    match numeral.number with
    | .ok n => .ok (n, rest)
    | .error surplus => .error (.here .numberOutOfRange (surplus ++ rest))

theorem spanDigits_append (text : List Char) : (spanDigits text).1 ++ (spanDigits text).2 = text :=
  List.takeWhile_append_dropWhile

theorem length_spanDigits_le (text : List Char) : (spanDigits text).2.length ≤ text.length := by
  have all := congrArg List.length (spanDigits_append text)
  rw [List.length_append] at all
  omega

theorem readDigits_shrinks {atEnd : Problem} {text ds rest : List Char}
    (read : readDigits atEnd text = .ok (ds, rest)) : rest.length < text.length := by
  unfold readDigits at read
  split at read
  · cases read
  next c tail =>
    split at read
    next digit =>
      simp only [Except.ok.injEq, spanDigits, Prod.mk.injEq] at read
      obtain ⟨-, rfl⟩ := read
      rw [List.dropWhile_cons_of_pos digit]
      have := length_spanDigits_le tail
      simp only [spanDigits] at this
      simp only [List.length_cons]
      omega
    · cases read

theorem readWhole_shrinks {atEnd : Problem} {text ds rest : List Char}
    (read : readWhole atEnd text = .ok (ds, rest)) : rest.length < text.length := by
  unfold readWhole at read
  split at read
  · split at read
    · split at read
      · cases read
      · cases read; simp
    · cases read; simp
  · exact readDigits_shrinks read

theorem readFraction_le {atEnd : Problem} {text rest : List Char} {ds : Option (List Char)}
    (read : readFraction atEnd text = .ok (ds, rest)) : rest.length ≤ text.length := by
  unfold readFraction at read
  split at read
  · split at read
    · cases read
    next found =>
      have := readDigits_shrinks found
      cases read
      simp only [List.length_cons]
      omega
  · cases read; simp

theorem length_readSign_le (text : List Char) : (readSign text).2.length ≤ text.length := by
  unfold readSign
  split <;> simp

theorem readExponent_le {atEnd : Problem} {text rest : List Char} {e : Option (Bool × List Char)}
    (read : readExponent atEnd text = .ok (e, rest)) : rest.length ≤ text.length := by
  unfold readExponent at read
  split at read
  next c tail =>
    split at read
    · split at read
      · cases read
      next found =>
        have := readDigits_shrinks found
        have := length_readSign_le tail
        cases read
        simp only [List.length_cons]
        omega
    · cases read; simp
  · cases read; simp

theorem readUnsigned_shrinks {atEnd : Problem} {negative : Bool} {text rest : List Char}
    {n : Numeral} (read : readUnsigned atEnd negative text = .ok (n, rest)) :
    rest.length < text.length := by
  unfold readUnsigned at read
  split at read
  · cases read
  next whole =>
    split at read
    · cases read
    next fraction =>
      split at read
      · cases read
      next exponent =>
        have := readWhole_shrinks whole
        have := readFraction_le fraction
        have := readExponent_le exponent
        cases read
        omega

theorem Numeral.read_shrinks {atEnd : Problem} {text rest : List Char} {n : Numeral}
    (read : Numeral.read atEnd text = .ok (n, rest)) : rest.length < text.length := by
  unfold Numeral.read at read
  split at read
  · have := readUnsigned_shrinks read
    simp only [List.length_cons]
    omega
  · exact readUnsigned_shrinks read

theorem Number.read_shrinks {text rest : List Char} {n : Number}
    (read : Number.read text = .ok (n, rest)) : rest.length < text.length := by
  unfold Number.read at read
  split at read
  · cases read
  next found =>
    split at read
    · cases read
      exact Numeral.read_shrinks found
    · cases read

end TransactionLookup.Json
