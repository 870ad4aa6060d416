import TransactionLookup.Calendar.Instant
import TransactionLookup.Decimal.Natural

/-!
# Instants as RFC 3339 text

An instant in universal time, with the fewest of 0, 3, 6 or 9 fraction digits that are exact. A
year of more than four digits or before year 0 has a sign. A leap second is written as one second more
than the second it is kept with, which is the second 60 at the end of a minute.
-/

namespace TransactionLookup.Calendar

/-- A year with at least four digits, and a sign outside the years 0 to 9999. -/
def yearText (year : Int) : List Char :=
  let ds := Decimal.padded 4 year.natAbs
  if 0 ≤ year ∧ year ≤ 9999 then ds else (if year < 0 then '-' else '+') :: ds

def Date.text (d : Date) : List Char :=
  yearText d.year ++ '-' :: Decimal.padded 2 d.month ++ '-' :: Decimal.padded 2 d.day

/-- Nanoseconds as a fraction of a second, empty when there is none. -/
def fractionText (nanos : Nat) : List Char :=
  if nanos = 0 then []
  else if nanos % 1000000 = 0 then '.' :: Decimal.padded 3 (nanos / 1000000)
  else if nanos % 1000 = 0 then '.' :: Decimal.padded 6 (nanos / 1000)
  else '.' :: Decimal.padded 9 nanos

/-- The time of day that is `ofDay` seconds after midnight, with its nanoseconds. -/
def timeText (ofDay nanos : Nat) : List Char :=
  let leap := second ≤ nanos
  let s := ofDay % 60 + if leap then 1 else 0
  Decimal.padded 2 (ofDay / 3600) ++ ':' :: Decimal.padded 2 (ofDay / 60 % 60) ++
    ':' :: Decimal.padded 2 s ++ fractionText (if leap then nanos - second else nanos)

def Instant.text (t : Instant) : List Char :=
  (Date.ofDays (t.seconds / 86400)).text ++
    'T' :: timeText (t.seconds % 86400).toNat t.nanos ++ ['Z']

end TransactionLookup.Calendar
