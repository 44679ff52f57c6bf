import LaneBus.Timestamp
import LaneBus.Text
import LaneBus.Text.Blank
import LaneBus.Json.Fault
import LaneBus.Word

/-! # Reading timestamps

A date, a separator, a time of day and an offset from universal time are read
from left to right, with blanks allowed before every number and mark.  A field
outside its own range is refused as soon as it is read; that the day exists in
its month, the year is supported and the offset is below a day is checked once
everything has been read.
-/
namespace LaneBus
namespace Timestamp

/-- Why a text is no timestamp. -/
inductive ParseError where
  | invalid
  | tooShort
  | tooLong
  | outOfRange
  | impossible
  deriving DecidableEq, Repr

/-- The text of a cause. -/
def ParseError.message : ParseError → String
  | invalid => "input contains invalid characters"
  | tooShort => "premature end of input"
  | tooLong => "trailing input"
  | outOfRange => "input is out of range"
  | impossible => "no possible date and time matching input"

/-- Reads a part off the front of a text. -/
abbrev Scan (α : Type) := List Char → Except ParseError (α × List Char)

/-- Collects at most `width` digits. -/
def digitsUpTo : (width : Nat) → (n : Nat) → List Char → Nat × List Char
  | 0, n, s => (n, s)
  | _ + 1, n, [] => (n, [])
  | width + 1, n, c :: s =>
    if c.isDigit then digitsUpTo width (n * 10 + (c.toNat - '0'.toNat)) s else (n, c :: s)

/-- Reads a number of at least one and at most `width` digits. -/
def scanNumber (width : Nat) : Scan Nat
  | [] => .error .tooShort
  | c :: s => if c.isDigit then .ok (digitsUpTo width 0 (c :: s)) else .error .invalid

/-- Reads a number of at most two digits after blanks, and checks its range. -/
def scanField (low high : Nat) : Scan Nat := fun s =>
  match scanNumber 2 (Text.trimFront s) with
  | .error e => .error e
  | .ok (n, rest) => if low ≤ n ∧ n ≤ high then .ok (n, rest) else .error .outOfRange

/-- Reads a year, which fits into 32 bits: four digits at most, or any number of
them after a sign. -/
def scanYear : Scan Int := fun s =>
  let signed (sign : Int) (s : List Char) : Except ParseError (Int × List Char) :=
    match scanNumber s.length s with
    | .error e => .error e
    | .ok (n, rest) =>
      let year := sign * n
      if Word.minInt 32 ≤ year ∧ year ≤ Word.maxInt 32 then .ok (year, rest)
      else .error .outOfRange
  match Text.trimFront s with
  | '-' :: rest => signed (-1) rest
  | '+' :: rest => signed 1 rest
  | other =>
    match scanNumber 4 other with
    | .error e => .error e
    | .ok (n, rest) => .ok ((n : Int), rest)

/-- Reads a mark after blanks. -/
def scanMark (mark : Char) : Scan Unit := fun s =>
  match Text.trimFront s with
  | [] => .error .tooShort
  | c :: rest => if c = mark then .ok ((), rest) else .error .invalid

/-- Reads a fraction of a second in nanoseconds, if there is one; digits after
the ninth are passed over. -/
def scanFraction : Scan Nat
  | '.' :: s =>
    match scanNumber 9 s with
    | .error e => .error e
    | .ok (n, rest) =>
      .ok (n * Nat.pow 10 (9 - (s.length - rest.length)), rest.dropWhile Char.isDigit)
  | s => .ok (0, s)

/-- Two digits as a number, with the first one. -/
def twoDigits? : List Char → Option (Nat × List Char)
  | a :: b :: rest =>
    if a.isDigit ∧ b.isDigit then
      some ((a.toNat - '0'.toNat) * 10 + (b.toNat - '0'.toNat), rest)
    else none
  | _ => none

/-- Reads two digits. -/
def scanTwo : Scan Nat := fun s =>
  match twoDigits? s with
  | some result => .ok result
  | none => if Json.byteCount s < 2 then .error .tooShort else .error .invalid

/-- Reads the hours and minutes of an offset after its sign. -/
def scanHoursMinutes (sign : Int) : Scan Int := fun s =>
  match scanTwo s with
  | .error e => .error e
  | .ok (hours, rest) =>
    match scanTwo (rest.dropWhile fun c => c = ':' || Text.isBlank c) with
    | .error e => .error e
    | .ok (minutes, rest) =>
      if minutes < 60 then .ok (sign * (hours * 60 + minutes : Nat), rest) else .error .outOfRange

/-- Reads an offset in minutes. -/
def scanOffset : Scan Int
  | [] => .error .tooShort
  | c :: s =>
    if Text.sameIgnoringCase (String.ofList ((c :: s).take 3)) "UTC" then .ok (0, s.drop 2)
    else if c = 'Z' ∨ c = 'z' then .ok (0, s)
    else if c = '+' then scanHoursMinutes 1 s
    else if c = '-' ∨ c = '−' then scanHoursMinutes (-1) s
    else .error .invalid

/-- Reads the separator of date and time. -/
def scanSeparator : Scan Unit
  | [] => .error .tooShort
  | c :: s => if c = 'T' ∨ c = 't' ∨ c = ' ' then .ok ((), s) else .error .invalid

/-- The timestamp of a text. -/
def parse (text : String) : Except ParseError Timestamp := do
  let (year, s) ← scanYear text.toList
  let ((), s) ← scanMark '-' s
  let (month, s) ← scanField 1 12 s
  let ((), s) ← scanMark '-' s
  let (day, s) ← scanField 1 31 s
  let ((), s) ← scanSeparator s
  let (hour, s) ← scanField 0 23 s
  let ((), s) ← scanMark ':' s
  let (minute, s) ← scanField 0 59 s
  let ((), s) ← scanMark ':' s
  let (second, s) ← scanField 0 60 s
  let (nano, s) ← scanFraction s
  let (offset, s) ← scanOffset (Text.trimFront s)
  if !(Text.trimFront s).isEmpty then throw .tooLong
  let t : Timestamp := { year, month, day, hour, minute, second, nano }
  if ¬ t.Valid ∨ 1440 ≤ offset.natAbs then throw .outOfRange
  match t.earlier? offset with
  | some t => pure t
  | none => throw .impossible

end Timestamp
end LaneBus
