import TransactionLookup.Calendar.Date

/-!
# Instants

A moment of universal time to the nanosecond, from the first second of year -262143 to the last of
year 262142. A leap second is kept with the ordinary second before it, as a second whose nanoseconds
run on from one thousand million. An instant can hold one after any second. Real ones end a minute,
and only these are made with a check and have a text of their own: inside a minute a leap second is
written like the second after it.
-/

namespace TransactionLookup.Calendar

def firstYear : Int := -262143

def lastYear : Int := 262142

/-- The first second of the range, in seconds after 1970. -/
def firstSecond : Int := -8334601228800

/-- The last second of the range, in seconds after 1970. -/
def lastSecond : Int := 8210266876799

/-- Nanoseconds in an ordinary second. -/
def second : Nat := 1000000000

/-- A moment of universal time. -/
structure Instant where
  /-- Whole seconds after the start of 1970. -/
  seconds : Int
  /-- Nanoseconds into the second; one thousand million or more inside a leap second. -/
  nanos : Nat
  started : firstSecond ≤ seconds
  ended : seconds ≤ lastSecond
  nanos_lt : nanos < 2 * second
  deriving DecidableEq, Repr

namespace Instant

/-- Whether the instant is in an ordinary second, or in a leap second that ends a minute. -/
def Regular (t : Instant) : Prop := second ≤ t.nanos → t.seconds % 60 = 59

instance (t : Instant) : Decidable t.Regular := by unfold Regular; infer_instance

/-- The regular instant with the given seconds and nanoseconds, if there is one. -/
def of? (seconds : Int) (nanos : Nat) : Option Instant :=
  if h : firstSecond ≤ seconds ∧ seconds ≤ lastSecond ∧ nanos < 2 * second ∧
      (second ≤ nanos → seconds % 60 = 59) then
    some ⟨seconds, nanos, h.1, h.2.1, h.2.2.1⟩
  else none

def epoch : Instant := ⟨0, 0, by decide, by decide, by decide⟩

theorem of?_eq_some_iff {seconds : Int} {nanos : Nat} {t : Instant} :
    of? seconds nanos = some t ↔ t.seconds = seconds ∧ t.nanos = nanos ∧ t.Regular := by
  unfold of?
  split
  next inside =>
    constructor
    · intro made
      cases made
      exact ⟨rfl, rfl, inside.2.2.2⟩
    · rintro ⟨rfl, rfl, -⟩
      rfl
  next outside =>
    constructor
    · intro made
      cases made
    · rintro ⟨rfl, rfl, regular⟩
      exact absurd ⟨t.started, t.ended, t.nanos_lt, regular⟩ outside

theorem Regular.of?_self {t : Instant} (regular : t.Regular) : of? t.seconds t.nanos = some t :=
  of?_eq_some_iff.mpr ⟨rfl, rfl, regular⟩

end Instant

end TransactionLookup.Calendar
