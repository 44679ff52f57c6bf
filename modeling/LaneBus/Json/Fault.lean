import LaneBus.Json.Value
import LaneBus.Text
import LaneBus.Text.Quoted

/-! # Faults of a JSON text

Reading stops at the first fault.  A fault is its cause and the number of bytes
that were unread when it arose, from which its line and column follow: the line
counts line feeds before that point, the column the bytes since the last of
them.
-/
namespace LaneBus
namespace Json

/-- The kind of value met where another was expected. -/
inductive Found where
  | null
  | bool (b : Bool)
  | number (n : Number)
  | string (s : String)
  | sequence
  | map

/-- The cause of a fault. -/
inductive Issue where
  | eofValue
  | eofString
  | eofList
  | eofObject
  | expectedValue
  | expectedIdent
  | expectedColon
  | expectedListEnd
  | expectedObjectEnd
  | keyNotString
  | invalidNumber
  | numberOutOfRange
  | invalidEscape
  | controlCharacter
  | loneSurrogate
  | endOfHexEscape
  | trailingComma
  | trailingCharacters
  | tooDeep
  | wrongType (found : Found) (expected : String)
  | wrongValue (n : Int) (expected : String)
  | wrongLength (n : Nat) (expected : String)
  | unknownVariant (name : String) (known : List String)
  | missingField (name : String)
  | duplicateField (name : String)
  | custom (text : String)

/-- The description of a value that was met. -/
def Found.text : Found → String
  | null => "null"
  | bool b => "boolean `" ++ (if b then "true" else "false") ++ "`"
  | number (.int n) => "integer `" ++ String.ofList (intText n) ++ "`"
  | number (.float x) => "floating point `" ++ String.ofList x.text ++ "`"
  | string s => "string " ++ Text.quoted s
  | sequence => "sequence"
  | map => "map"

/-- The text of a cause. -/
def Issue.text : Issue → String
  | eofValue => "EOF while parsing a value"
  | eofString => "EOF while parsing a string"
  | eofList => "EOF while parsing a list"
  | eofObject => "EOF while parsing an object"
  | expectedValue => "expected value"
  | expectedIdent => "expected ident"
  | expectedColon => "expected `:`"
  | expectedListEnd => "expected `,` or `]`"
  | expectedObjectEnd => "expected `,` or `\x7d`"
  | keyNotString => "key must be a string"
  | invalidNumber => "invalid number"
  | numberOutOfRange => "number out of range"
  | invalidEscape => "invalid escape"
  | controlCharacter => "control character (\\u0000-\\u001F) found while parsing a string"
  | loneSurrogate => "lone leading surrogate in hex escape"
  | endOfHexEscape => "unexpected end of hex escape"
  | trailingComma => "trailing comma"
  | trailingCharacters => "trailing characters"
  | tooDeep => "recursion limit exceeded"
  | wrongType found expected => "invalid type: " ++ found.text ++ ", expected " ++ expected
  | wrongValue n expected =>
    "invalid value: " ++ (Found.number (.int n)).text ++ ", expected " ++ expected
  | wrongLength n expected => "invalid length " ++ n.repr ++ ", expected " ++ expected
  | unknownVariant name known =>
    "unknown variant `" ++ name ++ "`, expected one of " ++
      Text.join ", " (known.map fun k => "`" ++ k ++ "`")
  | missingField name => "missing field `" ++ name ++ "`"
  | duplicateField name => "duplicate field `" ++ name ++ "`"
  | custom text => text

/-- A fault while reading: its cause and the bytes left unread. -/
structure Fault where
  issue : Issue
  unread : Nat

/-- The number of bytes of a text. -/
def byteCount (s : List Char) : Nat := s.foldl (fun n c => n + c.utf8Size) 0

/-- A fault right before `rest`. -/
def Fault.here (issue : Issue) (rest : List Char) : Fault := ⟨issue, byteCount rest⟩

/-- A fault at the next byte of `rest`, which counts as read. -/
def Fault.peeked (issue : Issue) (rest : List Char) : Fault := ⟨issue, byteCount rest - 1⟩

/-- A fault with its place in the whole text. -/
structure ReadError where
  issue : Issue
  line : Nat
  column : Nat

/-- The line and column right before the byte at `index`, given those of the
byte at `offset`, where `text` starts. -/
def positionFrom (index : Nat) : List Char → Nat → Nat → Nat → Nat × Nat
  | [], offset, line, start => (line, min index offset - start)
  | c :: rest, offset, line, start =>
    if offset < index then
      if c = '\n' then positionFrom index rest (offset + 1) (line + 1) (offset + 1)
      else positionFrom index rest (offset + c.utf8Size) line start
    else (line, index - start)

/-- A fault placed in the text it arose in. -/
def Fault.place (fault : Fault) (text : List Char) : ReadError :=
  let (line, column) := positionFrom (byteCount text - fault.unread) text 0 1 0
  { issue := fault.issue, line, column }

/-- The message of a fault in its text. -/
def ReadError.message (e : ReadError) : String :=
  e.issue.text ++ " at line " ++ e.line.repr ++ " column " ++ e.column.repr

end Json
end LaneBus
