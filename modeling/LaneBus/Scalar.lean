import LaneBus.Failure
import LaneBus.Text

/-! # Reading scalars from text

Integers in a range, truth values, decimal numbers and single characters, each
with the reason why a text is none.  An integer is read digit by digit, so that
of a bad digit and a number out of range the one that comes first is reported.
-/
namespace LaneBus

/-- Why a text is no scalar. -/
inductive ScalarError where
  | emptyInteger
  | invalidDigit
  | tooLarge
  | tooSmall
  | notBool
  | emptyFloat
  | invalidFloat
  | emptyChar
  | manyChars
  deriving DecidableEq, Repr

namespace ScalarError

/-- The text of a reason. -/
def message : ScalarError → String
  | emptyInteger => "cannot parse integer from empty string"
  | invalidDigit => "invalid digit found in string"
  | tooLarge => "number too large to fit in target type"
  | tooSmall => "number too small to fit in target type"
  | notBool => "provided string was not `true` or `false`"
  | emptyFloat => "cannot parse float from empty string"
  | invalidFloat => "invalid float literal"
  | emptyChar => "cannot parse char from empty string"
  | manyChars => "too many characters in string"

/-- The kind of failure that a reason makes. -/
def kind : ScalarError → String
  | emptyInteger | invalidDigit | tooLarge | tooSmall => "core::num::error::ParseIntError"
  | notBool => "core::str::error::ParseBoolError"
  | emptyFloat | invalidFloat => "core::num::float_parse::ParseFloatError"
  | emptyChar | manyChars => "core::char::convert::ParseCharError"

/-- A reason as a failure. -/
def failure (e : ScalarError) : Failure := { kind := e.kind, message := e.message }

end ScalarError

namespace Scalar

/-- Goes on reading digits after `n`, up to `limit`; `excess` is the reason when
the limit is passed. -/
def digitsFrom (limit : Nat) (excess : ScalarError) : Nat → List Char → Except ScalarError Nat
  | n, [] => .ok n
  | n, c :: rest =>
    if c.isDigit then
      let next := n * 10 + (c.toNat - '0'.toNat)
      if next ≤ limit then digitsFrom limit excess next rest else .error excess
    else .error .invalidDigit

/-- The integer between `low` and `high` that a text stands for.  A minus sign is
known only where there are negative numbers. -/
def readInt (low high : Int) (text : String) : Except ScalarError Int :=
  match text.toList with
  | [] => .error .emptyInteger
  | ['+'] | ['-'] => .error .invalidDigit
  | '+' :: rest => Int.ofNat <$> digitsFrom high.toNat .tooLarge 0 rest
  | '-' :: rest =>
    if low < 0 then (fun n => -Int.ofNat n) <$> digitsFrom low.natAbs .tooSmall 0 rest
    else .error .invalidDigit
  | digits => Int.ofNat <$> digitsFrom high.toNat .tooLarge 0 digits

/-- The truth value that a text names. -/
def readBool : String → Except ScalarError Bool
  | "true" => .ok true
  | "false" => .ok false
  | _ => .error .notBool

/-- The text after a sign, if there is one. -/
def dropSign : List Char → List Char
  | '+' :: rest => rest
  | '-' :: rest => rest
  | s => s

/-- Whether a text is an exponent, or nothing. -/
def isExponent : List Char → Bool
  | [] => true
  | c :: rest =>
    (c == 'e' || c == 'E') && !(dropSign rest).isEmpty && (dropSign rest).all Char.isDigit

/-- Whether a text is a decimal number without its sign. -/
def isDecimal (s : List Char) : Bool :=
  let whole := s.takeWhile Char.isDigit
  match s.dropWhile Char.isDigit with
  | '.' :: rest =>
    !(whole.isEmpty && (rest.takeWhile Char.isDigit).isEmpty) &&
      isExponent (rest.dropWhile Char.isDigit)
  | rest => !whole.isEmpty && isExponent rest

/-- Checks that a text is a decimal number, an infinity or not a number. -/
def checkFloat (text : String) : Except ScalarError Unit :=
  if text = "" then .error .emptyFloat
  else
    let unsigned := dropSign text.toList
    let named := ["INF", "INFINITY", "NAN"].contains (Text.asciiUpper (String.ofList unsigned))
    if named || isDecimal unsigned then .ok () else .error .invalidFloat

/-- The only character of a text. -/
def readChar (text : String) : Except ScalarError Char :=
  match text.toList with
  | [] => .error .emptyChar
  | [c] => .ok c
  | _ => .error .manyChars

end Scalar
end LaneBus
