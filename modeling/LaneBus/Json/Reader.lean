import LaneBus.Json.Fault
import LaneBus.Word

/-! # Reading the tokens of a JSON text

A reader takes the characters left and returns a result with what it did not
consume, or the first fault.  This module reads blanks, names, numbers and
strings, and skips values whose content does not matter.  A loop over characters
carries the number of steps it may still take, which its caller sets to the
number of characters left; each step consumes at least one.
-/
namespace LaneBus
namespace Json

/-- Reads a result off the front of a text. -/
abbrev Reader (α : Type) := List Char → Except Fault (α × List Char)

/-- Whether a character is blank between tokens. -/
def isSpace (c : Char) : Bool := c = ' ' || c = '\n' || c = '\t' || c = '\r'

/-- The text from its first token on. -/
def skipSpace (s : List Char) : List Char := s.dropWhile isSpace

/-- Reads the letters `name`, one of the words of the format. -/
def readIdent : (name : List Char) → Reader Unit
  | [], s => .ok ((), s)
  | _ :: _, [] => .error (.here .eofValue [])
  | c :: name, d :: s =>
    if c = d then readIdent name s else .error (.peeked .expectedIdent (d :: s))

/-- The digit that a character stands for. -/
def digit? (c : Char) : Option Nat :=
  if '0' ≤ c ∧ c ≤ '9' then some (c.toNat - '0'.toNat) else none

/-- The text without its leading digits. -/
def skipDigits (s : List Char) : List Char := s.dropWhile Char.isDigit

/-! ## Numbers

The digits of a number are collected as long as they make a 64-bit integer.  A
digit of the integer part that does not fit only counts in the exponent; one of
the fraction ends the collection. -/

/-- The bound of unsigned 64-bit integers. -/
def natBound : Nat := Word.count 64

/-- Rounds collected digits, giving them a sign. -/
def finishFloat (negative : Bool) (digits : Nat) (exponent : Int) : Reader Number := fun s =>
  match Binary64.ofDecimal digits exponent with
  | none => .error (.here .numberOutOfRange s)
  | some x => .ok (.float (if negative then x.neg else x), s)

/-- Reads the rest of an exponent of which `exp` has been read. -/
def readExponentDigits (negative : Bool) (digits : Nat) (start : Int) (expNegative : Bool)
    (exp : Nat) : Reader Number
  | [] => finishFloat negative digits (if expNegative then start - exp else start + exp) []
  | c :: s =>
    match digit? c with
    | none =>
      finishFloat negative digits (if expNegative then start - exp else start + exp) (c :: s)
    | some d =>
      if exp * 10 + d < Word.count 31 then
        readExponentDigits negative digits start expNegative (exp * 10 + d) s
      else if digits ≠ 0 ∧ !expNegative then .error (.here .numberOutOfRange s)
      else .ok (.float (Binary64.zero negative), skipDigits s)

/-- Reads an exponent after its letter. -/
def readExponent (negative : Bool) (digits : Nat) (start : Int) : Reader Number := fun s =>
  let (expNegative, s) :=
    match s with
    | '+' :: rest => (false, rest)
    | '-' :: rest => (true, rest)
    | _ => (false, s)
  match s with
  | [] => .error (.here .eofValue [])
  | c :: rest =>
    match digit? c with
    | none => .error (.peeked .invalidNumber s)
    | some d => readExponentDigits negative digits start expNegative d rest

/-- Ends a number with a fraction, or reads its exponent. -/
def readAfterFraction (negative : Bool) (digits : Nat) (exponent : Int) : Reader Number
  | 'e' :: s => readExponent negative digits exponent s
  | 'E' :: s => readExponent negative digits exponent s
  | s => finishFloat negative digits exponent s

/-- Reads the digits of a fraction, `places` of which have been read. -/
def readFractionDigits (negative : Bool) (before : Int) (digits places : Nat) : Reader Number
  | [] =>
    if places = 0 then .error (.here .eofValue [])
    else readAfterFraction negative digits (before - places) []
  | c :: s =>
    match digit? c with
    | some d =>
      if digits * 10 + d < natBound then
        readFractionDigits negative before (digits * 10 + d) (places + 1) s
      else readAfterFraction negative digits (before - places) (skipDigits s)
    | none =>
      if places = 0 then .error (.peeked .invalidNumber (c :: s))
      else readAfterFraction negative digits (before - places) (c :: s)

/-- Reads an integer part that no longer fits, of which `extra` digits only
count in the exponent. -/
def readLongInteger (negative : Bool) (digits : Nat) (extra : Nat) : Reader Number
  | [] => finishFloat negative digits extra []
  | c :: s =>
    if c.isDigit then readLongInteger negative digits (extra + 1) s
    else if c = '.' then readFractionDigits negative extra digits 0 s
    else if c = 'e' ∨ c = 'E' then readExponent negative digits extra s
    else finishFloat negative digits extra (c :: s)

/-- A number without fraction or exponent: an integer where one of 64 bits has
the value, and a floating-point number otherwise. -/
def integerOf (negative : Bool) (digits : Nat) : Number :=
  if !negative then .int digits
  else if digits ≠ 0 ∧ digits ≤ Word.count 63 then .int (-(digits : Int))
  else .float (((Binary64.ofNat digits).getD (.zero false)).neg)

/-- Goes on after an integer part. -/
def readAfterInteger (negative : Bool) (digits : Nat) : Reader Number
  | '.' :: s => readFractionDigits negative 0 digits 0 s
  | 'e' :: s => readExponent negative digits 0 s
  | 'E' :: s => readExponent negative digits 0 s
  | s => .ok (integerOf negative digits, s)

/-- Reads the digits of an integer part. -/
def readIntegerDigits (negative : Bool) (digits : Nat) : Reader Number
  | [] => .ok (integerOf negative digits, [])
  | c :: s =>
    match digit? c with
    | none => readAfterInteger negative digits (c :: s)
    | some d =>
      if digits * 10 + d < natBound then readIntegerDigits negative (digits * 10 + d) s
      else readLongInteger negative digits 1 s

/-- Reads a number after its sign. -/
def readUnsigned (negative : Bool) : Reader Number
  | [] => .error (.here .eofValue [])
  | '0' :: s =>
    match s with
    | c :: _ =>
      if c.isDigit then .error (.peeked .invalidNumber s) else readAfterInteger negative 0 s
    | [] => readAfterInteger negative 0 s
  | c :: s =>
    match digit? c with
    | some d => readIntegerDigits negative d s
    | none => .error (.peeked .invalidNumber (c :: s))

/-! ## Strings -/

/-- The value of a hexadecimal digit. -/
def hexDigit? (c : Char) : Option Nat :=
  if '0' ≤ c ∧ c ≤ '9' then some (c.toNat - '0'.toNat)
  else if 'a' ≤ c ∧ c ≤ 'f' then some (c.toNat - 'a'.toNat + 10)
  else if 'A' ≤ c ∧ c ≤ 'F' then some (c.toNat - 'A'.toNat + 10)
  else none

/-- The number of four hexadecimal digits. -/
def hexFour? : List Char → Option (Nat × List Char)
  | a :: b :: c :: d :: rest => do
    let a ← hexDigit? a
    let b ← hexDigit? b
    let c ← hexDigit? c
    let d ← hexDigit? d
    some (((a * 16 + b) * 16 + c) * 16 + d, rest)
  | _ => none

/-- Reads four hexadecimal digits.  The four bytes are taken whether or not they
are digits. -/
def readHexFour : Reader Nat := fun s =>
  match hexFour? s with
  | some result => .ok result
  | none =>
    if byteCount s < 4 then .error (.here .eofString [])
    else .error ⟨.invalidEscape, byteCount s - 4⟩

/-- Reads an escape by number after its letter: one code unit, or the two units
of a surrogate pair. -/
def readUnicodeEscape : Reader Char := fun s =>
  match readHexFour s with
  | .error e => .error e
  | .ok (n, rest) =>
    if 0xdc00 ≤ n ∧ n ≤ 0xdfff then .error (.here .loneSurrogate rest)
    else if n < 0xd800 ∨ 0xdbff < n then .ok (Char.ofNat n, rest)
    else
      match rest with
      | '\\' :: 'u' :: low =>
        match readHexFour low with
        | .error e => .error e
        | .ok (m, rest) =>
          if 0xdc00 ≤ m ∧ m ≤ 0xdfff then
            .ok (Char.ofNat (0x10000 + (n - 0xd800) * 0x400 + (m - 0xdc00)), rest)
          else .error (.here .loneSurrogate rest)
      | '\\' :: [] => .error (.here .eofString [])
      | '\\' :: other => .error (.peeked .endOfHexEscape other)
      | [] => .error (.here .eofString [])
      | other => .error (.peeked .endOfHexEscape other)

/-- The character of a short escape. -/
def shortEscape? : Char → Option Char
  | '"' => some '"'
  | '\\' => some '\\'
  | '/' => some '/'
  | 'b' => some '\x08'
  | 'f' => some '\x0c'
  | 'n' => some '\n'
  | 'r' => some '\r'
  | 't' => some '\t'
  | _ => none

/-- Reads an escape after its backslash. -/
def readEscape : Reader Char
  | [] => .error (.here .eofString [])
  | 'u' :: s => readUnicodeEscape s
  | c :: s =>
    match shortEscape? c with
    | some d => .ok (d, s)
    | none => .error (.peeked .invalidEscape (c :: s))

/-- Reads the rest of a string of which `seen` has been read, last first. -/
def readStringFrom : Nat → List Char → Reader String
  | 0, _, s => .error (.here .eofString s)
  | _ + 1, _, [] => .error (.here .eofString [])
  | steps + 1, seen, c :: s =>
    if c = '"' then .ok (String.ofList seen.reverse, s)
    else if c = '\\' then
      match readEscape s with
      | .error e => .error e
      | .ok (d, rest) => readStringFrom steps (d :: seen) rest
    else if c.toNat < 32 then .error (.peeked .controlCharacter (c :: s))
    else readStringFrom steps (c :: seen) s

/-- Reads a string after its opening quote. -/
def readString : Reader String := fun s => readStringFrom (s.length + 1) [] s

/-! ## Skipping -/

/-- Skips an exponent after its letter. -/
def skipExponent : Reader Unit := fun s =>
  let s :=
    match s with
    | '+' :: rest => rest
    | '-' :: rest => rest
    | _ => s
  match s with
  | [] => .error (.here .invalidNumber [])
  | c :: rest =>
    if c.isDigit then .ok ((), skipDigits rest) else .error (.peeked .invalidNumber s)

/-- Skips an exponent, if there is one. -/
def skipAfterFraction : Reader Unit
  | 'e' :: s => skipExponent s
  | 'E' :: s => skipExponent s
  | s => .ok ((), s)

/-- Skips a fraction or exponent, if there is one. -/
def skipAfterInteger : Reader Unit
  | '.' :: s =>
    match s with
    | c :: rest =>
      if c.isDigit then skipAfterFraction (skipDigits rest)
      else .error (.peeked .invalidNumber s)
    | [] => .error (.peeked .invalidNumber [])
  | s => skipAfterFraction s

/-- Skips a number after its sign. -/
def skipUnsigned : Reader Unit
  | [] => .error (.here .invalidNumber [])
  | '0' :: s =>
    match s with
    | c :: _ => if c.isDigit then .error (.peeked .invalidNumber s) else skipAfterInteger s
    | [] => .ok ((), [])
  | c :: s =>
    if c.isDigit then skipAfterInteger (skipDigits s)
    else .error (.peeked .invalidNumber (c :: s))

/-- Skips the rest of a string. -/
def skipStringFrom : Nat → Reader Unit
  | 0, s => .error (.here .eofString s)
  | _ + 1, [] => .error (.here .eofString [])
  | steps + 1, c :: s =>
    if c = '"' then .ok ((), s)
    else if c = '\\' then
      match s with
      | [] => .error (.here .eofString [])
      | 'u' :: rest =>
        match readHexFour rest with
        | .error e => .error e
        | .ok (_, rest) => skipStringFrom steps rest
      | d :: rest =>
        if (shortEscape? d).isSome then skipStringFrom steps rest
        else .error (.peeked .invalidEscape s)
    else if c.toNat < 32 then .error (.here .controlCharacter (c :: s))
    else skipStringFrom steps s

/-- Skips a string after its opening quote. -/
def skipString : Reader Unit := fun s => skipStringFrom (s.length + 1) s

/-- The brackets that enclose a value. -/
inductive Bracket where
  | list
  | object
  deriving DecidableEq

/-- Closes brackets after a value as far as the text does, innermost first.
Returns the brackets that stay open, after their comma, or none when all are
closed. -/
def closeBrackets : List Bracket → Reader (List Bracket)
  | [], s => .ok ([], s)
  | b :: outer, s =>
    match b, skipSpace s with
    | .list, [] => .error (.here .eofList [])
    | .object, [] => .error (.here .eofObject [])
    | .list, ']' :: rest => closeBrackets outer rest
    | .object, '}' :: rest => closeBrackets outer rest
    | _, ',' :: rest => .ok (b :: outer, rest)
    | .list, other => .error (.peeked .expectedListEnd other)
    | .object, other => .error (.peeked .expectedObjectEnd other)

/-- Skips a key and its colon. -/
def skipKey : Reader Unit := fun s =>
  match skipSpace s with
  | [] => .error (.here .eofObject [])
  | '"' :: rest =>
    match skipString rest with
    | .error e => .error e
    | .ok ((), rest) =>
      match skipSpace rest with
      | ':' :: rest => .ok ((), rest)
      | [] => .error (.here .eofObject [])
      | other => .error (.peeked .expectedColon other)
  | other => .error (.peeked .keyNotString other)

/-- Skips a name, number or string that starts with `c`. -/
def skipScalar (c : Char) : Reader Unit := fun s =>
  if c = 'n' then readIdent "ull".toList s
  else if c = 't' then readIdent "rue".toList s
  else if c = 'f' then readIdent "alse".toList s
  else if c = '-' then skipUnsigned s
  else if c.isDigit then skipUnsigned (c :: s)
  else if c = '"' then skipString s
  else .error (.peeked .expectedValue (c :: s))

/-- Skips a value that stands inside some brackets, innermost first, and what
follows up to the end of the outermost. -/
def skipValueFrom : Nat → List Bracket → Reader Unit
  | 0, _, s => .error (.here .eofValue s)
  | steps + 1, outer, s =>
    match skipSpace s with
    | [] => .error (.here .eofValue [])
    | c :: rest =>
      let opened : Except Fault (List Bracket × List Char) :=
        if c = '[' then
          match skipSpace rest with
          | [] => .error (.here .eofList [])
          | ']' :: after => closeBrackets outer after
          | inside => .ok (.list :: outer, inside)
        else if c = '{' then
          match skipSpace rest with
          | [] => .error (.here .eofObject [])
          | '}' :: after => closeBrackets outer after
          | inside => .ok (.object :: outer, inside)
        else
          match skipScalar c rest with
          | .error e => .error e
          | .ok ((), after) => closeBrackets outer after
      match opened with
      | .error e => .error e
      | .ok ([], after) => .ok ((), after)
      | .ok (.list :: outer, after) => skipValueFrom steps (.list :: outer) after
      | .ok (.object :: outer, after) =>
        match skipKey after with
        | .error e => .error e
        | .ok ((), after) => skipValueFrom steps (.object :: outer) after

/-- Skips a value of any depth. -/
def skipValue : Reader Unit := fun s => skipValueFrom (s.length + 1) [] s

end Json
end LaneBus
