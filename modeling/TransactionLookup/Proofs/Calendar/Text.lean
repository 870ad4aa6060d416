import TransactionLookup.Calendar.Reading
import TransactionLookup.Calendar.Rfc3339
import TransactionLookup.Proofs.Calendar.Date
import TransactionLookup.Proofs.Decimal.Padded

/-!
# Instants read back

The text of a regular instant is read as that instant: in every year, with every number of fraction
digits, and inside a leap second that ends a minute. Each part of the text is read as it was written and
leaves what follows. A leap second inside a minute has the text of the second after it, and so is read
as that; an instant is read back exactly if it is regular (`read_text_iff`).
-/

namespace TransactionLookup.Calendar

variable {rest : List Char}

theorem dropBlanks_of_not_blank {c : Char} (visible : Text.isBlank c = false) (rest : List Char) :
    Text.dropBlanks (c :: rest) = c :: rest := by
  simp [Text.dropBlanks, visible]

theorem not_blank_of_isDigit {c : Char} (digit : c.isDigit = true) : Text.isBlank c = false := by
  have range : 48 ≤ c.toNat ∧ c.toNat ≤ 57 := by
    simpa [Char.isDigit, UInt32.le_iff_toNat_le] using digit
  simp [Text.isBlank]
  omega

/-! ## Numbers -/

/-- Digits are read as their number when no other digit is within the width. -/
theorem readNumber_of_stops {width : Nat} {ds : List Char} (present : ds ≠ [])
    (all : ∀ d ∈ ds, d.isDigit = true) (fits : ds.length ≤ width)
    (stops : (rest.take (width - ds.length)).takeWhile Char.isDigit = []) :
    readNumber width (ds ++ rest) = .ok (Decimal.value ds, rest) := by
  -- within the width, the digits are just those
  have found : ((ds ++ rest).take width).takeWhile Char.isDigit = ds := by
    rw [List.take_append, List.take_of_length_le fits, List.takeWhile_append_of_pos all, stops,
      List.append_nil]
  cases ds with
  | nil => exact absurd rfl present
  | cons d ds =>
    rw [readNumber, found]
    simp [List.drop_left']

theorem readNumber_padded (width : Nat) {n : Nat} (positive : 0 < width) (small : n < Nat.pow 10 width)
    (rest : List Char) : readNumber width (Decimal.padded width n ++ rest) = .ok (n, rest) := by
  have length := Decimal.length_padded positive small
  rw [readNumber_of_stops (Decimal.padded_ne_nil width n)
    (fun _ member => Decimal.isDigit_of_mem_padded member) (Nat.le_of_eq length),
    Decimal.value_padded]
  rw [length, Nat.sub_self]
  rfl

theorem readNumber_before (width : Nat) {size n : Nat} {c : Char} (mark : c.isDigit = false)
    (fits : (Decimal.padded size n).length ≤ width) (rest : List Char) :
    readNumber width (Decimal.padded size n ++ c :: rest) = .ok (n, c :: rest) := by
  rw [readNumber_of_stops (Decimal.padded_ne_nil size n)
    (fun _ member => Decimal.isDigit_of_mem_padded member) fits, Decimal.value_padded]
  cases width - (Decimal.padded size n).length with
  | zero => rfl
  | succ room => simp [mark]

theorem dropBlanks_padded (width n : Nat) (rest : List Char) :
    Text.dropBlanks (Decimal.padded width n ++ rest) = Decimal.padded width n ++ rest := by
  cases written : Decimal.padded width n with
  | nil => exact absurd written (Decimal.padded_ne_nil width n)
  | cons d ds =>
    have digit : d.isDigit = true := Decimal.isDigit_of_mem_padded (written ▸ List.mem_cons_self)
    exact dropBlanks_of_not_blank (not_blank_of_isDigit digit) (ds ++ rest)

theorem readPart_padded {low high n : Nat} (least : low ≤ n) (most : n ≤ high) (small : high < 100)
    (rest : List Char) : readPart low high (Decimal.padded 2 n ++ rest) = .ok (n, rest) := by
  have read := readNumber_padded 2 (n := n) (by decide) (by simp; omega) rest
  simp only [readPart, dropBlanks_padded, read]
  rw [if_pos ⟨least, most⟩]

/-! ## The year -/

theorem readYear_padded {n : Nat} (small : n < Nat.pow 10 4) (rest : List Char) :
    readYear (Decimal.padded 4 n ++ rest) = .ok (n, rest) := by
  have read := readNumber_padded 4 (by decide) small rest
  have digits : ∀ c ∈ Decimal.padded 4 n, c.isDigit = true :=
    fun _ member => Decimal.isDigit_of_mem_padded member
  -- the text starts with a digit, and so with no sign
  have start : ∀ {c : Char} {tail : List Char}, Decimal.padded 4 n ++ rest = c :: tail →
      c.isDigit = true := by
    intro c tail same
    cases written : Decimal.padded 4 n with
    | nil => exact absurd written (Decimal.padded_ne_nil 4 n)
    | cons d ds =>
      rw [written, List.cons_append] at same
      rw [← (List.cons.inj same).1]
      exact digits d (written ▸ List.mem_cons_self)
  rw [readYear, dropBlanks_padded]
  split
  next same => exact absurd (start same) (by decide)
  next same => exact absurd (start same) (by decide)
  · rw [read]

theorem readYear_minus {n : Nat} (small : n ≤ 2147483648) (rest : List Char) :
    readYear ('-' :: (Decimal.padded 4 n ++ '-' :: rest)) = .ok (-n, '-' :: rest) := by
  have read := readNumber_before _ (c := '-') rfl
    (show (Decimal.padded 4 n).length ≤ (Decimal.padded 4 n ++ '-' :: rest).length by simp) rest
  rw [readYear, dropBlanks_of_not_blank rfl]
  simp only [read, if_true]
  rw [if_pos (by omega)]

theorem readYear_plus {n : Nat} (small : n < 2147483648) (rest : List Char) :
    readYear ('+' :: (Decimal.padded 4 n ++ '-' :: rest)) = .ok (n, '-' :: rest) := by
  have read := readNumber_before _ (c := '-') rfl
    (show (Decimal.padded 4 n).length ≤ (Decimal.padded 4 n ++ '-' :: rest).length by simp) rest
  rw [readYear, dropBlanks_of_not_blank rfl]
  simp only [read, Bool.false_eq_true, if_false]
  rw [if_pos (by omega)]

/-- A year is read back in each of its three forms. -/
theorem readYear_yearText {year : Int} (least : -2147483648 ≤ year) (most : year ≤ 2147483647)
    (rest : List Char) : readYear (yearText year ++ '-' :: rest) = .ok (year, '-' :: rest) := by
  unfold yearText
  split
  next plain =>
    rw [readYear_padded (by simp; omega), Int.natAbs_of_nonneg plain.1]
  next signed =>
    rcases Int.lt_or_le year 0 with before | after
    · rw [if_pos before, List.cons_append, readYear_minus (by omega)]
      congr 2
      omega
    · rw [if_neg (Int.not_lt.mpr after), List.cons_append, readYear_plus (by omega)]
      congr 2
      omega

/-! ## Marks, fractions and the offset -/

theorem readMark_cons {c : Char} (visible : Text.isBlank c = false) (rest : List Char) :
    readMark c (c :: rest) = .ok rest := by
  simp [readMark, dropBlanks_of_not_blank visible]

theorem readFraction_padded {size n : Nat} {c : Char} (mark : c.isDigit = false) (fits : size ≤ 9)
    (positive : 0 < size) (small : n < Nat.pow 10 size) (rest : List Char) :
    readFraction ('.' :: (Decimal.padded size n ++ c :: rest)) =
      .ok (n * Nat.pow 10 (9 - size), c :: rest) := by
  have length := Decimal.length_padded positive small
  have read := readNumber_before 9 (n := n) mark
    (show (Decimal.padded size n).length ≤ 9 by omega) rest
  simp [readFraction, read, length, mark]

theorem readFraction_of_ne {c : Char} (other : c ≠ '.') (rest : List Char) :
    readFraction (c :: rest) = .ok (0, c :: rest) := by
  unfold readFraction
  split
  next same => exact absurd (List.cons.inj same).1 other
  · rfl

/-- A fraction is read back whichever number of digits it needs. -/
theorem readFraction_fractionText {nanos : Nat} {c : Char} (small : nanos < second)
    (mark : c.isDigit = false) (other : c ≠ '.') (rest : List Char) :
    readFraction (fractionText nanos ++ c :: rest) = .ok (nanos, c :: rest) := by
  have small : nanos < 1000000000 := small
  unfold fractionText
  split
  next none => rw [none, List.nil_append, readFraction_of_ne other]
  split
  next millis =>
    rw [List.cons_append, readFraction_padded mark (by decide) (by decide) (by simp; omega)]
    congr 2
    simp
    omega
  split
  next micros =>
    rw [List.cons_append, readFraction_padded mark (by decide) (by decide) (by simp; omega)]
    congr 2
    simp
    omega
  · rw [List.cons_append, readFraction_padded mark (by decide) (by decide) (by simp; omega)]
    congr 2
    simp

/-! ## Written times -/

namespace Local

/-- A date and a time of day as they are written, without their offset. -/
def clockText (l : Local) : List Char :=
  l.date.text ++ 'T' :: Decimal.padded 2 l.hour ++ ':' :: Decimal.padded 2 l.minute ++
    ':' :: Decimal.padded 2 l.second ++ fractionText l.nanos

/-- Whether the parts of a written time are in their ranges, each by itself. -/
structure InRange (l : Local) : Prop where
  least : firstYear ≤ l.date.year
  most : l.date.year ≤ lastYear
  date : l.date.Exists
  hour : l.hour ≤ 23
  minute : l.minute ≤ 59
  second : l.second ≤ 60
  nanos : l.nanos < Calendar.second

/-- A date and a time of day as they are written, up to the whole second. -/
def clock (separator : Char) (l : Local) : List Char :=
  l.date.text ++ separator :: Decimal.padded 2 l.hour ++ ':' :: Decimal.padded 2 l.minute ++
    ':' :: Decimal.padded 2 l.second

/-- A written time is read back when its fraction and its offset are, whatever form these have. -/
theorem read_clock {l : Local} (range : l.InRange) {separator : Char}
    (separates : separator = 'T' ∨ separator = 't' ∨ separator = ' ') {fraction zone : List Char}
    (fractional : readFraction (fraction ++ zone) = .ok (l.nanos, zone))
    (offset : readOffset (Text.dropBlanks zone) = .ok (l.offset, rest)) :
    readLocal (l.clock separator ++ (fraction ++ zone)) = .ok (l, rest) := by
  obtain ⟨january, december, first, last⟩ := range.date
  have longest := monthLength_le l.date.year l.date.month
  -- the years of the range are far within those that are read
  have least := range.least
  have most := range.most
  simp only [firstYear, lastYear] at least most
  simp only [clock, Date.text, List.append_assoc, List.cons_append]
  simp only [readLocal, bind, Except.bind, readSeparator, separates, if_true, offset, fractional,
    readYear_yearText (show -2147483648 ≤ l.date.year by omega) (by omega),
    readMark_cons (c := '-') rfl, readMark_cons (c := ':') rfl,
    readPart_padded january december (by decide),
    readPart_padded first (Nat.le_trans last longest) (by decide),
    readPart_padded (Nat.zero_le _) range.hour (by decide),
    readPart_padded (Nat.zero_le _) range.minute (by decide),
    readPart_padded (Nat.zero_le _) range.second (by decide)]

/-- A written time is read back, when its offset is, whatever form the offset has. -/
theorem read_clockText {l : Local} (range : l.InRange) {c : Char} (mark : c.isDigit = false)
    (other : c ≠ '.') {zone : List Char}
    (offset : readOffset (Text.dropBlanks (c :: zone)) = .ok (l.offset, rest)) :
    readLocal (l.clockText ++ c :: zone) = .ok (l, rest) := by
  have fractional := readFraction_fractionText range.nanos mark other zone
  have parts : l.clockText ++ c :: zone = l.clock 'T' ++ (fractionText l.nanos ++ c :: zone) :=
    List.append_assoc _ _ _
  rw [parts]
  exact read_clock range (.inl rfl) fractional offset

end Local

/-! ## The text of an instant -/

namespace Instant

/-- The parts of an instant as its text gives them. -/
def parts (t : Instant) : Local :=
  let ofDay := (t.seconds % 86400).toNat
  { date := Date.ofDays (t.seconds / 86400)
    hour := ofDay / 3600
    minute := ofDay / 60 % 60
    second := ofDay % 60 + if second ≤ t.nanos then 1 else 0
    nanos := if second ≤ t.nanos then t.nanos - second else t.nanos
    offset := 0 }

variable {t u : Instant}

theorem text_eq (t : Instant) : t.text = t.parts.clockText ++ ['Z'] := by
  simp [text, timeText, Local.clockText, parts]

/-- Only a leap second is the second 60. -/
theorem second_parts (regular : t.Regular) :
    (second ≤ t.nanos → t.parts.second = 60) ∧ (t.nanos < second → t.parts.second ≤ 59) := by
  constructor
  · intro inside
    simp only [parts, if_pos inside]
    have := regular inside
    omega
  · intro ordinary
    simp only [parts, if_neg (Nat.not_le.mpr ordinary)]
    omega

theorem nanos_parts (regular : t.Regular) :
    (if t.parts.second = 60 then t.parts.nanos + second else t.parts.nanos) = t.nanos := by
  obtain ⟨leap, ordinary⟩ := second_parts regular
  rcases Nat.lt_or_ge t.nanos second with before | inside
  · have nanos : t.parts.nanos = t.nanos := if_neg (Nat.not_le.mpr before)
    have := ordinary before
    rw [if_neg (by omega), nanos]
  · have nanos : t.parts.nanos = t.nanos - second := if_pos inside
    rw [if_pos (leap inside), nanos, Nat.sub_add_cancel inside]

theorem nanos_parts_lt (t : Instant) : t.parts.nanos < second := by
  have bounded := t.nanos_lt
  rcases Nat.lt_or_ge t.nanos second with before | inside
  · have nanos : t.parts.nanos = t.nanos := if_neg (Nat.not_le.mpr before)
    omega
  · have nanos : t.parts.nanos = t.nanos - second := if_pos inside
    omega

theorem seconds_parts (regular : t.Regular) :
    t.parts.date.toDays * 86400 +
      (t.parts.hour * 3600 + t.parts.minute * 60 + min t.parts.second 59 : Nat) - t.parts.offset =
        t.seconds := by
  have leap : second ≤ t.nanos → t.seconds % 60 = 59 := regular
  -- the leap second counts as the second before it
  have ordinary : min t.parts.second 59 = (t.seconds % 86400).toNat % 60 := by
    simp only [parts]
    split <;> omega
  rw [ordinary]
  simp only [parts, Date.toDays_ofDays]
  omega

theorem parts_inRange (t : Instant) : t.parts.InRange where
  least := (Date.year_within t).1
  most := (Date.year_within t).2
  date := Date.exists_ofDays (t.seconds / 86400)
  hour := by
    simp only [parts]
    omega
  minute := by
    simp only [parts]
    omega
  second := by
    simp only [parts]
    split <;> omega
  nanos := t.nanos_parts_lt

theorem readLocal_text (t : Instant) : readLocal t.text = .ok (t.parts, []) := by
  rw [text_eq]
  exact Local.read_clockText t.parts_inRange rfl (by decide) rfl

/-- The parts of a regular instant name it. -/
theorem instant_parts (regular : t.Regular) : t.parts.instant = .ok t := by
  have exist := Date.exists_ofDays (t.seconds / 86400)
  obtain ⟨least, most⟩ := Date.year_within t
  have offset : t.parts.offset = 0 := rfl
  unfold Local.instant
  rw [if_pos ⟨least, most, exist, by omega, by omega⟩]
  simp only [seconds_parts regular, nanos_parts regular, regular.of?_self]

theorem read_text (regular : t.Regular) : Instant.read t.text = .ok t := by
  simp only [read, t.readLocal_text, instant_parts regular]
  rfl

/-! ## Leap seconds inside a minute -/

/-- Only regular instants are read. -/
theorem regular_of_read {text : List Char} (found : Instant.read text = .ok t) : t.Regular := by
  unfold read at found
  split at found
  · cases found
  next l rest _ =>
    split at found
    · unfold Local.instant at found
      split at found
      · dsimp only at found
        split at found
        next made =>
          -- the instant was made with the check, whatever its parts were
          cases found
          exact (of?_eq_some_iff.mp made).2.2
        · cases found
      · cases found
    · cases found

/-- The instant that is written like the given one: the second after a leap second inside a minute, and
else the instant itself. -/
def settled (t : Instant) : Instant :=
  if stray : second ≤ t.nanos ∧ t.seconds % 60 ≠ 59 then
    { seconds := t.seconds + 1
      nanos := t.nanos - second
      started := by have := t.started; omega
      -- the last second of all ends a minute
      ended := by have := t.ended; unfold lastSecond at *; omega
      nanos_lt := by have := t.nanos_lt; omega }
  else t

theorem settled_of_regular (regular : t.Regular) : t.settled = t :=
  dif_neg fun stray => stray.2 (regular stray.1)

theorem regular_settled (t : Instant) : t.settled.Regular := by
  have bounded := t.nanos_lt
  unfold settled
  split
  · -- the second after it is an ordinary one
    intro inside
    have : second ≤ t.nanos - second := inside
    omega
  next ordinary =>
    intro inside
    apply Decidable.byContradiction
    intro within
    exact ordinary ⟨inside, within⟩

theorem timeText_succ {ofDay nanos : Nat} (within : ofDay % 60 ≠ 59) (inside : second ≤ nanos)
    (bounded : nanos < 2 * second) :
    timeText (ofDay + 1) (nanos - second) = timeText ofDay nanos := by
  have hour : (ofDay + 1) / 3600 = ofDay / 3600 := by omega
  have minute : (ofDay + 1) / 60 % 60 = ofDay / 60 % 60 := by omega
  have next : (ofDay + 1) % 60 = ofDay % 60 + 1 := by omega
  have ordinary : ¬ second ≤ nanos - second := by omega
  simp only [timeText, hour, minute, next, if_pos inside, if_neg ordinary, Nat.add_zero]

theorem text_settled (t : Instant) : t.settled.text = t.text := by
  unfold settled
  split
  next stray =>
    obtain ⟨inside, within⟩ := stray
    -- the day is the same, since its last second ends a minute
    have day : (t.seconds + 1) / 86400 = t.seconds / 86400 := by omega
    have ofDay : ((t.seconds + 1) % 86400).toNat = (t.seconds % 86400).toNat + 1 := by omega
    have time : timeText ((t.seconds % 86400).toNat + 1) (t.nanos - second) =
        timeText (t.seconds % 86400).toNat t.nanos := timeText_succ (by omega) inside t.nanos_lt
    simp only [text, day, ofDay, time]
  · rfl

/-- The text of any instant is read as the instant that is written so. -/
theorem read_text_settled (t : Instant) : Instant.read t.text = .ok t.settled := by
  rw [← text_settled]
  exact read_text t.regular_settled

/-- An instant is read back from its text exactly if it is in no leap second inside a minute. -/
theorem read_text_iff : Instant.read t.text = .ok t ↔ t.Regular :=
  ⟨regular_of_read, read_text⟩

theorem text_eq_iff : t.text = u.text ↔ t.settled = u.settled := by
  constructor
  · intro same
    have first := t.read_text_settled
    rw [same, u.read_text_settled] at first
    exact (Except.ok.inj first).symm
  · intro same
    rw [← t.text_settled, same, u.text_settled]

/-- No two regular instants have one text. -/
theorem text_injective (regular : t.Regular) (regular' : u.Regular) (same : t.text = u.text) :
    t = u := by
  have settled := text_eq_iff.mp same
  rwa [settled_of_regular regular, settled_of_regular regular'] at settled

end Instant

end TransactionLookup.Calendar
