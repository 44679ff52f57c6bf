import LaneBus.Timestamp

/-! # Time since the epoch

A clock counts the nanoseconds since the first of January 1970.  The days among
them are counted on from the first of March of the year 0, so that the day that a
leap year adds comes last in its year, and every 400 years have the same length.
-/
namespace LaneBus
namespace Timestamp

/-- The days from the first of March of the year 0 to the first of January 1970. -/
def daysToEpoch : Nat := 719468

/-- The days of 400 years. -/
def daysInEra : Nat := 146097

/-- The year, which starts in March, of a day within 400 years. -/
def yearOfDay (day : Nat) : Nat := (day - day / 1460 + day / 36524 - day / 146096) / 365

/-- The date of a day that is counted from the first of March of the year 0: year,
month and day. -/
def civilDate (days : Nat) : Nat × Nat × Nat :=
  let day := days % daysInEra
  let year := yearOfDay day
  let dayOfYear := day - (365 * year + year / 4 - year / 100)
  let fromMarch := (5 * dayOfYear + 2) / 153
  let month := if fromMarch < 10 then fromMarch + 3 else fromMarch - 9
  (days / daysInEra * 400 + year + (if month ≤ 2 then 1 else 0), month,
    dayOfYear - (153 * fromMarch + 2) / 5 + 1)

/-- The time that a number of nanoseconds since the epoch stands for. -/
def ofNanoseconds (n : Nat) : Timestamp :=
  let seconds := n / 1000000000
  let ofDay := seconds % 86400
  let (year, month, day) := civilDate (seconds / 86400 + daysToEpoch)
  { year, month, day
    hour := ofDay / 3600
    minute := ofDay / 60 % 60
    second := ofDay % 60
    nano := n % 1000000000 }

end Timestamp
end LaneBus
