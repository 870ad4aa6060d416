import Mathlib.Data.List.Basic
import Mathlib.Tactic.Ring
import TransactionLookup.Proofs.Calendar.Text

/-!
# Instants written with an offset

The clocks of the world differ by whole minutes, and show one instant in as many ways. Whatever they
show is a time of day on a date of its own, so that an offset may carry into another day or year;
the second, a leap second too, is the same on all of them. Such a text is read as the instant, with
any number of digits in its fraction as long as these are exact (`Instant.Written.read`). The text
of an instant is the one without an offset and with the fewest digits.
-/

namespace TransactionLookup

/-! ## Digits -/

namespace Decimal

theorem valueFrom_eq (start : Nat) (ds : List Char) :
    valueFrom start ds = start * 10 ^ ds.length + value ds := by
  induction ds generalizing start with
  | nil => simp [valueFrom, value]
  | cons d ds ih =>
    have whole : valueFrom start (d :: ds) = valueFrom (10 * start + digitValue d) ds := rfl
    have alone : value (d :: ds) = valueFrom (10 * 0 + digitValue d) ds := rfl
    rw [whole, alone, ih, ih, List.length_cons]
    ring

theorem value_append (front back : List Char) :
    value (front ++ back) = value front * 10 ^ back.length + value back := by
  rw [value, valueFrom_append, valueFrom_eq]
  rfl

theorem digitValue_lt {d : Char} (digit : d.isDigit = true) : digitValue d < 10 := by
  have range : 48 ≤ d.toNat ∧ d.toNat ≤ 57 := by
    simpa [Char.isDigit, UInt32.le_iff_toNat_le] using digit
  rw [digitValue]
  omega

theorem value_lt {ds : List Char} (all : ∀ d ∈ ds, d.isDigit = true) :
    value ds < 10 ^ ds.length := by
  induction ds with
  | nil => simp [value, valueFrom]
  | cons d ds ih =>
    obtain ⟨digit, later⟩ := List.forall_mem_cons.mp all
    have alone : value (d :: ds) = valueFrom (10 * 0 + digitValue d) ds := rfl
    have small := digitValue_lt digit
    have tail := ih later
    calc value (d :: ds) = digitValue d * 10 ^ ds.length + value ds := by
          rw [alone, valueFrom_eq, Nat.mul_zero, Nat.zero_add]
      _ < (digitValue d + 1) * 10 ^ ds.length := by rw [Nat.succ_mul]; omega
      _ ≤ 10 * 10 ^ ds.length := Nat.mul_le_mul_right _ small
      _ = 10 ^ (d :: ds).length := by rw [List.length_cons, Nat.pow_succ, Nat.mul_comm]

end Decimal

namespace Calendar

variable {rest : List Char}

/-! ## Fractions -/

/-- The digits of a fraction with their point, or nothing if there are none. -/
def pointed : List Char → List Char
  | [] => []
  | d :: ds => '.' :: d :: ds

/-- Whether digits behind the point give nanoseconds exactly, be there few of them or many. -/
structure IsFraction (nanos : Nat) (ds : List Char) : Prop where
  digits : ∀ d ∈ ds, d.isDigit = true
  exact : Decimal.value ds * second = nanos * 10 ^ ds.length

/-- A fraction is read as its nanoseconds, and what is less than a nanosecond is dropped. -/
theorem readFraction_digits {ds : List Char} (present : ds ≠ []) (all : ∀ d ∈ ds, d.isDigit = true)
    {c : Char} (mark : c.isDigit = false) (rest : List Char) :
    readFraction ('.' :: (ds ++ c :: rest)) =
      .ok (Decimal.value ds * second / 10 ^ ds.length, c :: rest) := by
  rcases Nat.le_total ds.length 9 with short | long
  · have stops : ((c :: rest).take (9 - ds.length)).takeWhile Char.isDigit = [] := by
      cases 9 - ds.length with
      | zero => rfl
      | succ room => simp [mark]
    have read := readNumber_of_stops present all short stops
    have scaled : second = 10 ^ (9 - ds.length) * 10 ^ ds.length := by
      rw [← Nat.pow_add, Nat.sub_add_cancel short]
      rfl
    rw [scaled, ← Nat.mul_assoc, Nat.mul_div_cancel _ (Nat.pow_pos (by decide))]
    simp [readFraction, read, mark]
  · -- the first nine digits are read, and the others passed
    obtain ⟨front, back, rfl, nine⟩ : ∃ front back, ds = front ++ back ∧ front.length = 9 :=
      ⟨ds.take 9, ds.drop 9, (List.take_append_drop 9 ds).symm, List.length_take_of_le long⟩
    obtain ⟨frontDigits, backDigits⟩ := List.forall_mem_append.mp all
    have frontPresent : front ≠ [] := by
      rintro rfl
      cases nine
    have stops : ((back ++ c :: rest).take (9 - front.length)).takeWhile Char.isDigit = [] := by
      rw [nine]
      rfl
    have read := readNumber_of_stops frontPresent frontDigits (Nat.le_of_eq nine) stops
    have dropped : (back ++ c :: rest).dropWhile Char.isDigit = c :: rest := by
      rw [List.dropWhile_append_of_pos backDigits, List.dropWhile_cons_of_neg (by simp [mark])]
    have less := Decimal.value_lt backDigits
    have value : Decimal.value (front ++ back) * second / 10 ^ (front ++ back).length =
        Decimal.value front := by
      have scale : (10 : Nat) ^ (front ++ back).length = 10 ^ back.length * second := by
        rw [List.length_append, nine, Nat.add_comm, Nat.pow_add]
        rfl
      rw [scale, Nat.mul_div_mul_right _ _ (by decide), Decimal.value_append, Nat.mul_comm,
        Nat.mul_add_div (Nat.pow_pos (by decide)), Nat.div_eq_of_lt less, Nat.add_zero]
    rw [value]
    simp [readFraction, List.append_assoc, read, dropped, nine]

theorem IsFraction.read {nanos : Nat} {ds : List Char} (fraction : IsFraction nanos ds) {c : Char}
    (mark : c.isDigit = false) (other : c ≠ '.') (rest : List Char) :
    readFraction (pointed ds ++ c :: rest) = .ok (nanos, c :: rest) := by
  have exact := fraction.exact
  cases ds with
  | nil =>
    have none : nanos = 0 := by simpa [Decimal.value, Decimal.valueFrom, eq_comm] using exact
    rw [none]
    exact readFraction_of_ne other rest
  | cons d ds =>
    have read := readFraction_digits (List.cons_ne_nil d ds) fraction.digits mark rest
    rw [exact, Nat.mul_div_cancel _ (Nat.pow_pos (by decide))] at read
    exact read

/-- The numbers of digits that are used for fractions. -/
def fractionWidths : List Nat := [0, 3, 6, 9]

theorem isFraction_padded {width n nanos : Nat} (positive : 0 < width) (small : n < 10 ^ width)
    (exact : n * second = nanos * 10 ^ width) : IsFraction nanos (Decimal.padded width n) where
  digits _ member := Decimal.isDigit_of_mem_padded member
  exact := by rw [Decimal.value_padded, Decimal.length_padded positive small, exact]

theorem pointed_padded (width n : Nat) :
    pointed (Decimal.padded width n) = '.' :: Decimal.padded width n := by
  cases written : Decimal.padded width n with
  | nil => exact absurd written (Decimal.padded_ne_nil width n)
  | cons d ds => rfl

/-- Fewer digits than are used are exact only for nanoseconds that end in zeros. -/
theorem IsFraction.widths {nanos : Nat} {ds : List Char} (fraction : IsFraction nanos ds)
    (used : ds.length ∈ fractionWidths) :
    ds.length = 0 ∧ nanos = 0 ∨ ds.length = 3 ∧ nanos % 1000000 = 0 ∨
      ds.length = 6 ∧ nanos % 1000 = 0 ∨ ds.length = 9 := by
  have exact := fraction.exact
  simp only [fractionWidths, List.mem_cons, List.not_mem_nil, or_false] at used
  rcases used with length | length | length | length
  · obtain rfl := List.eq_nil_of_length_eq_zero length
    exact .inl ⟨rfl, by simpa [Decimal.value, Decimal.valueFrom, eq_comm] using exact⟩
  all_goals
    simp only [length, second] at exact
    omega

/-- The fraction of an instant has the fewest digits that are exact, of the numbers used. -/
theorem fractionText_eq {nanos : Nat} (small : nanos < second) :
    ∃ ds, fractionText nanos = pointed ds ∧ IsFraction nanos ds ∧ ds.length ∈ fractionWidths ∧
      ∀ {others : List Char}, IsFraction nanos others → others.length ∈ fractionWidths →
        ds.length ≤ others.length := by
  have small : nanos < 1000000000 := small
  have written {width n : Nat} (positive : 0 < width) (used : width ∈ fractionWidths)
      (fits : n < 10 ^ width) (exact : n * 1000000000 = nanos * 10 ^ width)
      (fewest : ∀ {others : List Char}, IsFraction nanos others → others.length ∈ fractionWidths →
        width ≤ others.length) :
      ∃ ds, '.' :: Decimal.padded width n = pointed ds ∧ IsFraction nanos ds ∧
        ds.length ∈ fractionWidths ∧ ∀ {others : List Char}, IsFraction nanos others →
          others.length ∈ fractionWidths → ds.length ≤ others.length := by
    refine ⟨_, (pointed_padded width n).symm, isFraction_padded positive fits exact, ?_⟩
    rw [Decimal.length_padded positive fits]
    exact ⟨used, fewest⟩
  unfold fractionText
  split
  next none =>
    have zero : IsFraction nanos [] :=
      ⟨List.forall_mem_nil _, by simp [none, Decimal.value, Decimal.valueFrom]⟩
    exact ⟨[], rfl, zero, by decide, fun _ _ => Nat.zero_le _⟩
  next present =>
    -- each further width is used only where the one before it is not exact
    split
    next millis =>
      apply written (by decide) (by decide) (by omega) (by omega)
      intro others fraction used
      have := fraction.widths used
      omega
    next notMillis =>
      split
      next micros =>
        apply written (by decide) (by decide) (by omega) (by omega)
        intro others fraction used
        have := fraction.widths used
        omega
      next notMicros =>
        apply written (by decide) (by decide) (by omega) rfl
        intro others fraction used
        have := fraction.widths used
        omega

/-! ## Offsets -/

/-- Hours and minutes as they are written in an offset. -/
def hoursMinutes (minutes : Nat) : List Char :=
  Decimal.padded 2 (minutes / 60) ++ ':' :: Decimal.padded 2 (minutes % 60)

/-- An offset of less than a day as it is written, by its minutes. That there is none can be written
in four ways. -/
inductive IsZone : Int → List Char → Prop
  | universal : IsZone 0 ['Z']
  | lower : IsZone 0 ['z']
  | ahead {minutes : Nat} (small : minutes < 1440) : IsZone minutes ('+' :: hoursMinutes minutes)
  | behind {minutes : Nat} (small : minutes < 1440) : IsZone (-minutes) ('-' :: hoursMinutes minutes)

theorem exists_zone {minutes : Int} (least : -1440 < minutes) (most : minutes < 1440) :
    ∃ zone, IsZone minutes zone := by
  rcases Int.le_total 0 minutes with ahead | behind
  · have zone : IsZone (minutes.toNat : Nat) _ := .ahead (by omega)
    rw [Int.toNat_of_nonneg ahead] at zone
    exact ⟨_, zone⟩
  · have zone : IsZone (-(minutes.natAbs : Nat)) _ := .behind (by omega)
    rw [Int.ofNat_natAbs_of_nonpos behind, Int.neg_neg] at zone
    exact ⟨_, zone⟩

/-- Two digits are a number below a hundred. -/
theorem exists_pair {n : Nat} (small : n < 100) :
    ∃ a b, Decimal.padded 2 n = [a, b] ∧ a.isDigit = true ∧ b.isDigit = true ∧
      Decimal.value [a, b] = n := by
  obtain ⟨a, b, written⟩ := List.length_eq_two.mp (Decimal.length_padded (by decide) small)
  have digits : ∀ d ∈ [a, b], d.isDigit = true :=
    fun d member => Decimal.isDigit_of_mem_padded (written ▸ member)
  refine ⟨a, b, written, digits a (by simp), digits b (by simp), ?_⟩
  rw [← written, Decimal.value_padded]

theorem readPair_of_digits {a b : Char} (first : a.isDigit = true) (second : b.isDigit = true)
    (rest : List Char) : readPair (a :: b :: rest) = .ok (a, b, rest) :=
  if_pos ⟨first, second⟩

theorem digitValue_le_of_le {c d : Char} (order : c ≤ d) :
    Decimal.digitValue c ≤ Decimal.digitValue d :=
  Nat.sub_le_sub_right order 48

/-- The five characters of an offset behind its sign. -/
theorem exists_hoursMinutes {minutes : Nat} (small : minutes < 1440) :
    ∃ a b p q, hoursMinutes minutes = [a, b, ':', p, q] ∧ (a.isDigit = true ∧ b.isDigit = true) ∧
      (p.isDigit = true ∧ q.isDigit = true) ∧ ¬ '6' ≤ p ∧
      Decimal.value [a, b] * 3600 + Decimal.value [p, q] * 60 = 60 * minutes := by
  obtain ⟨a, b, hours, da, db, hour⟩ := exists_pair (show minutes / 60 < 100 by omega)
  obtain ⟨p, q, rest, dp, dq, minute⟩ := exists_pair (show minutes % 60 < 100 by omega)
  refine ⟨a, b, p, q, ?_, ⟨da, db⟩, ⟨dp, dq⟩, ?_, ?_⟩
  · rw [hoursMinutes, hours, rest]
    rfl
  · -- sixty minutes are an hour, and so the tens of minutes are less than six
    intro large
    have tens : 6 ≤ Decimal.digitValue p := digitValue_le_of_le large
    simp only [Decimal.value, Decimal.valueFrom, List.foldl_cons, List.foldl_nil] at minute
    omega
  · rw [hour, minute]
    omega

/-- Behind either sign, hours and minutes are read as seconds. -/
theorem readOffset_hoursMinutes {minutes : Nat} (small : minutes < 1440) :
    readOffset ('+' :: hoursMinutes minutes) = .ok ((60 * minutes : Nat), []) ∧
      readOffset ('-' :: hoursMinutes minutes) = .ok (-(60 * minutes : Nat), []) := by
  obtain ⟨a, b, p, q, written, ⟨da, db⟩, ⟨dp, dq⟩, below, value⟩ := exists_hoursMinutes small
  have skipped : [':', p, q].dropWhile (fun c => c == ':' || Text.isBlank c) = [p, q] := by
    have other : p ≠ ':' := by
      rintro rfl
      cases dp
    simp [other, not_blank_of_isDigit dp]
  rw [written, ← value]
  constructor
  all_goals
    simp [readOffset, readOffset.zoned, readPair_of_digits, da, db, dp, dq, skipped, below]

theorem IsZone.read {minutes : Int} {zone : List Char} (isZone : IsZone minutes zone) :
    readOffset zone = .ok (60 * minutes, []) := by
  cases isZone with
  | universal => rfl
  | lower => rfl
  | @ahead minutes small =>
    rw [(readOffset_hoursMinutes small).1]
    rfl
  | @behind minutes small =>
    rw [(readOffset_hoursMinutes small).2, Int.natCast_mul, Int.mul_neg]
    rfl

theorem IsZone.head {minutes : Int} {zone : List Char} (isZone : IsZone minutes zone) :
    ∃ c tail, zone = c :: tail ∧ c.isDigit = false ∧ c ≠ '.' ∧ Text.isBlank c = false := by
  cases isZone with
  | universal => exact ⟨'Z', _, rfl, rfl, by decide, rfl⟩
  | lower => exact ⟨'z', _, rfl, rfl, by decide, rfl⟩
  | ahead => exact ⟨'+', _, rfl, rfl, by decide, rfl⟩
  | behind => exact ⟨'-', _, rfl, rfl, by decide, rfl⟩

theorem IsZone.bounds {minutes : Int} {zone : List Char} (isZone : IsZone minutes zone) :
    -1440 < minutes ∧ minutes < 1440 := by
  cases isZone with
  | universal => omega
  | lower => omega
  | ahead => omega
  | behind => omega

/-! ## What clocks show -/

namespace Instant

variable {t wall : Instant} {minutes : Int} {text : List Char}

/-- What a clock shows that is some minutes ahead of universal time, as the instant at which a clock
of universal time shows the same. A clock shows no leap second inside a minute. -/
def onClock? (t : Instant) (minutes : Int) : Option Instant :=
  Instant.of? (t.seconds + 60 * minutes) t.nanos

/-- Minutes leave the second as it is, so that a leap second that ends a minute does so on each clock. -/
theorem regular_iff_onClock (seconds : wall.seconds = t.seconds + 60 * minutes)
    (nanos : wall.nanos = t.nanos) : wall.Regular ↔ t.Regular := by
  unfold Regular
  rw [seconds, nanos]
  -- 60 divides what is added
  omega

theorem onClock?_eq_some_iff :
    t.onClock? minutes = some wall ↔
      wall.seconds = t.seconds + 60 * minutes ∧ wall.nanos = t.nanos ∧ t.Regular := by
  rw [onClock?, of?_eq_some_iff]
  constructor
  · rintro ⟨seconds, nanos, regular⟩
    exact ⟨seconds, nanos, (regular_iff_onClock seconds nanos).mp regular⟩
  · rintro ⟨seconds, nanos, regular⟩
    exact ⟨seconds, nanos, (regular_iff_onClock seconds nanos).mpr regular⟩

/-- A clock shows a regular instant as long as its date is in range. -/
theorem onClock?_isSome_iff (regular : t.Regular) : (t.onClock? minutes).isSome = true ↔
    firstSecond ≤ t.seconds + 60 * minutes ∧ t.seconds + 60 * minutes ≤ lastSecond := by
  rw [Option.isSome_iff_exists]
  constructor
  · rintro ⟨wall, shows⟩
    obtain ⟨seconds, -⟩ := onClock?_eq_some_iff.mp shows
    rw [← seconds]
    exact ⟨wall.started, wall.ended⟩
  · rintro ⟨started, ended⟩
    exact ⟨⟨_, t.nanos, started, ended, t.nanos_lt⟩, onClock?_eq_some_iff.mpr ⟨rfl, rfl, regular⟩⟩

/-- Whether a text is an instant written for a clock some minutes ahead of universal time. -/
def Written (t : Instant) (minutes : Int) (text : List Char) : Prop :=
  ∃ wall separator ds zone, t.onClock? minutes = some wall ∧
    (separator = 'T' ∨ separator = 't' ∨ separator = ' ') ∧ IsFraction wall.parts.nanos ds ∧
    IsZone minutes zone ∧ text = wall.parts.clock separator ++ (pointed ds ++ zone)

theorem exists_written (least : -1440 < minutes) (most : minutes < 1440)
    (shows : (t.onClock? minutes).isSome = true) : ∃ text, t.Written minutes text := by
  obtain ⟨wall, shows⟩ := Option.isSome_iff_exists.mp shows
  obtain ⟨zone, isZone⟩ := exists_zone least most
  obtain ⟨ds, -, fraction, -⟩ := fractionText_eq wall.nanos_parts_lt
  exact ⟨_, wall, 'T', ds, zone, shows, .inl rfl, fraction, isZone, rfl⟩

/-- What a clock shows names the instant when the offset of the clock is taken off. -/
theorem instant_onClock (shows : t.onClock? minutes = some wall) (least : -1440 < minutes)
    (most : minutes < 1440) :
    ({ wall.parts with offset := 60 * minutes } : Local).instant = .ok t := by
  obtain ⟨seconds, nanos, regular⟩ := onClock?_eq_some_iff.mp shows
  have own := (regular_iff_onClock seconds nanos).mpr regular
  -- a leap second is counted in the nanoseconds, with the second at 59
  have range := wall.parts_inRange
  have whole := seconds_parts own
  have offset : wall.parts.offset = 0 := rfl
  have universal : wall.parts.date.toDays * 86400 +
      (wall.parts.hour * 3600 + wall.parts.minute * 60 + min wall.parts.second 59 : Nat) -
        60 * minutes = t.seconds := by omega
  unfold Local.instant
  rw [if_pos ⟨range.least, range.most, range.date, by dsimp only; omega, by dsimp only; omega⟩]
  simp only [universal, nanos_parts own, nanos, regular.of?_self]

theorem Written.regular (written : t.Written minutes text) : t.Regular := by
  obtain ⟨_, _, _, _, shows, -⟩ := written
  exact (onClock?_eq_some_iff.mp shows).2.2

/-- However an instant is written, it is read as that instant. -/
theorem Written.read (written : t.Written minutes text) : Instant.read text = .ok t := by
  obtain ⟨wall, separator, ds, zone, shows, separates, fraction, isZone, rfl⟩ := written
  have range : Local.InRange { wall.parts with offset := 60 * minutes } :=
    { wall.parts_inRange with }
  have offset := isZone.read
  obtain ⟨least, most⟩ := isZone.bounds
  obtain ⟨c, tail, rfl, mark, other, visible⟩ := isZone.head
  rw [← dropBlanks_of_not_blank visible tail] at offset
  have read := Local.read_clock range separates (fraction.read mark other tail) offset
  -- the offset is no part of what the clock shows
  have shown : Local.clock separator { wall.parts with offset := 60 * minutes } =
      wall.parts.clock separator := rfl
  rw [shown] at read
  simp only [Instant.read, read, instant_onClock shows least most]
  rfl

/-- The text of an instant has no offset, and the fewest digits of those that are used. -/
theorem text_eq_clock (t : Instant) :
    ∃ ds, t.text = t.parts.clock 'T' ++ (pointed ds ++ ['Z']) ∧ IsFraction t.parts.nanos ds ∧
      ds.length ∈ fractionWidths ∧ ∀ {others : List Char}, IsFraction t.parts.nanos others →
        others.length ∈ fractionWidths → ds.length ≤ others.length := by
  obtain ⟨ds, same, fraction, used, fewest⟩ := fractionText_eq t.nanos_parts_lt
  refine ⟨ds, ?_, fraction, used, fewest⟩
  rw [text_eq, ← same, ← List.append_assoc]
  rfl

end Instant

end Calendar

end TransactionLookup
