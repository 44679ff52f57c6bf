/-! # Points in time

A timestamp is a civil date and time of day in universal time, to the
nanosecond.  The second may be 60, for a leap second.  Moving a timestamp by
minutes carries through the days of the calendar and fails only outside the
supported years.
-/
namespace LaneBus

/-- A civil date and time in universal time. -/
structure Timestamp where
  year : Int
  month : Nat
  day : Nat
  hour : Nat
  minute : Nat
  second : Nat
  nano : Nat
  deriving DecidableEq, Repr

namespace Timestamp

/-- The first supported year. -/
def minYear : Int := -262143

/-- The last supported year. -/
def maxYear : Int := 262142

/-- Whether a year has a 29th of February. -/
def isLeap (year : Int) : Bool := year % 4 == 0 && (year % 100 != 0 || year % 400 == 0)

/-- The number of days of a month. -/
def daysIn (year : Int) (month : Nat) : Nat :=
  if month = 2 then if isLeap year then 29 else 28
  else if month = 4 ∨ month = 6 ∨ month = 9 ∨ month = 11 then 30
  else 31

/-- Whether every field of a timestamp is in its range. -/
def Valid (t : Timestamp) : Prop :=
  minYear ≤ t.year ∧ t.year ≤ maxYear ∧ 1 ≤ t.month ∧ t.month ≤ 12 ∧
    1 ≤ t.day ∧ t.day ≤ daysIn t.year t.month ∧ t.hour ≤ 23 ∧ t.minute ≤ 59 ∧ t.second ≤ 60 ∧
    t.nano < 1000000000

instance (t : Timestamp) : Decidable t.Valid := by unfold Valid; infer_instance

/-- The same time on the next day. -/
def nextDay? (t : Timestamp) : Option Timestamp :=
  if t.day < daysIn t.year t.month then some { t with day := t.day + 1 }
  else if t.month < 12 then some { t with month := t.month + 1, day := 1 }
  else if t.year < maxYear then some { t with year := t.year + 1, month := 1, day := 1 }
  else none

/-- The same time on the day before. -/
def previousDay? (t : Timestamp) : Option Timestamp :=
  if 1 < t.day then some { t with day := t.day - 1 }
  else if 1 < t.month then
    some { t with month := t.month - 1, day := daysIn t.year (t.month - 1) }
  else if minYear < t.year then some { t with year := t.year - 1, month := 12, day := 31 }
  else none

/-- The time a number of minutes earlier, for less than a day of either sign. -/
def earlier? (t : Timestamp) (minutes : Int) : Option Timestamp :=
  let total : Int := (t.hour * 60 + t.minute : Nat) - minutes
  let within := (total % 1440).toNat
  let t' := { t with hour := within / 60, minute := within % 60 }
  if total < 0 then t'.previousDay?
  else if 1440 ≤ total then t'.nextDay?
  else some t'

/-- A number with zeros in front up to `width` digits. -/
def padded (width n : Nat) : List Char :=
  let digits := Nat.toDigits 10 n
  List.replicate (width - digits.length) '0' ++ digits

/-- A year: four digits up to 9999, and otherwise a sign and at least four. -/
def yearText (year : Int) : List Char :=
  if 0 ≤ year ∧ year ≤ 9999 then padded 4 year.natAbs
  else (if year < 0 then '-' else '+') :: padded 4 year.natAbs

/-- A fraction of a second with as many of 3, 6 or 9 digits as it needs. -/
def fractionText (nano : Nat) : List Char :=
  if nano = 0 then []
  else if nano % 1000000 = 0 then '.' :: padded 3 (nano / 1000000)
  else if nano % 1000 = 0 then '.' :: padded 6 (nano / 1000)
  else '.' :: padded 9 nano

/-- The text of a timestamp. -/
def chars (t : Timestamp) : List Char :=
  yearText t.year ++ '-' :: padded 2 t.month ++ '-' :: padded 2 t.day ++
    'T' :: padded 2 t.hour ++ ':' :: padded 2 t.minute ++ ':' :: padded 2 t.second ++
    fractionText t.nano ++ ['Z']

/-- The text of a timestamp, as a string. -/
def text (t : Timestamp) : String := String.ofList t.chars

end Timestamp
end LaneBus
