/-!
# Dates of the Gregorian calendar

A date as a year, a month and a day, and its number of days after 1970-01-01, for any year before
or after it. The count runs from the first of March of year 0, so that a leap day ends its year:
400 years have 146097 days, 100 of them 36524 except the last, 4 of them 1461 except at a century.
-/

namespace TransactionLookup.Calendar

/-- A year, a month from one and a day of the month from one. -/
structure Date where
  year : Int
  month : Nat
  day : Nat
  deriving DecidableEq, Repr

def isLeap (year : Int) : Bool :=
  year % 4 = 0 && (year % 100 ≠ 0 || year % 400 = 0)

def monthLength (year : Int) (month : Nat) : Nat :=
  match month with
  | 2 => if isLeap year then 29 else 28
  | 4 | 6 | 9 | 11 => 30
  | _ => 31

/-- Whether the month and the day exist. -/
def Date.Exists (d : Date) : Prop :=
  1 ≤ d.month ∧ d.month ≤ 12 ∧ 1 ≤ d.day ∧ d.day ≤ monthLength d.year d.month

instance (d : Date) : Decidable d.Exists := by unfold Date.Exists; infer_instance

/-- The days between the first of March and the first of a month, months counted from March. -/
def daysBeforeMonth (fromMarch : Nat) : Nat := (153 * fromMarch + 2) / 5

/-- The days before the first of March of a year, counted from year 0. -/
def daysBeforeYear (year : Int) : Int := 365 * year + year / 4 - year / 100 + year / 400

/-- The days between the first of March of year 0 and 1970-01-01. -/
def epoch : Int := 719468

/-- The number of days of a date after 1970-01-01. -/
def Date.toDays (d : Date) : Int :=
  let year := if d.month ≤ 2 then d.year - 1 else d.year
  let fromMarch := if d.month ≤ 2 then d.month + 9 else d.month - 3
  daysBeforeYear year + daysBeforeMonth fromMarch + (d.day - 1 : Nat) - epoch

/-- The date that many days after 1970-01-01. -/
def Date.ofDays (days : Int) : Date :=
  let count := days + epoch
  let era := count / 146097
  let ofEra := (count % 146097).toNat
  -- the last day of 400 years is a day more of their last century, not the first of a fifth
  let century := min (ofEra / 36524) 3
  let ofCentury := ofEra - century * 36524
  let cycle := ofCentury / 1461
  let ofCycle := ofCentury % 1461
  -- and the last day of 4 years is a day more of their last year
  let yearOfCycle := min (ofCycle / 365) 3
  let ofYear := ofCycle - yearOfCycle * 365
  let fromMarch := (5 * ofYear + 2) / 153
  let day := ofYear - daysBeforeMonth fromMarch + 1
  let month := if fromMarch < 10 then fromMarch + 3 else fromMarch - 9
  let year := 400 * era + (100 * century + 4 * cycle + yearOfCycle : Nat)
  ⟨if month ≤ 2 then year + 1 else year, month, day⟩

end TransactionLookup.Calendar
