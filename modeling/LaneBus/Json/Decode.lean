import LaneBus.Json.Reader

/-! # Decoding JSON into types

A type says how it is read from a text that may still open a number of brackets,
and how it is turned into a value.  Reading and checking the type go hand in
hand, so that the first fault of either kind in text order is the one reported.
Lists of values of one type and objects of any values are read here; records
with named fields use the steps `nextItem` and `nextKey`.
-/
namespace LaneBus
namespace Json

/-- The number of brackets that a text may nest. -/
def maxDepth : Nat := 127

/-- Types that are read from JSON, by a reader that may open `depth` brackets. -/
class Decode (α : Type) where
  read : (depth : Nat) → Reader α

/-- Types that are written as JSON, unless a value refuses with a reason. -/
class Encode (α : Type) where
  toJson : α → Except String Value

/-- Reads a number that starts with `c`. -/
def readNumber (c : Char) (rest : List Char) : Except Fault (Number × List Char) :=
  if c = '-' then readUnsigned true rest else readUnsigned false (c :: rest)

/-- Whether a number may start with a character. -/
def startsNumber (c : Char) : Bool := c = '-' || c.isDigit

/-- The fault of a value of another type than the expected one.  Names, numbers
and strings are read first, and their faults win. -/
def mismatch (expected : String) : List Char → Fault
  | [] => .here .eofValue []
  | c :: rest =>
    let wrong {α : Type} (found : α → Found) : Except Fault (α × List Char) → Fault
      | .error e => e
      | .ok (x, after) => .here (.wrongType (found x) expected) after
    if c = 'n' then wrong (fun _ => .null) (readIdent "ull".toList rest)
    else if c = 't' then wrong (fun _ => .bool true) (readIdent "rue".toList rest)
    else if c = 'f' then wrong (fun _ => .bool false) (readIdent "alse".toList rest)
    else if startsNumber c then wrong .number (readNumber c rest)
    else if c = '"' then wrong .string (readString rest)
    else if c = '[' then .here (.wrongType .sequence expected) (c :: rest)
    else if c = '{' then .here (.wrongType .map expected) (c :: rest)
    else .peeked .expectedValue (c :: rest)

/-! ## Lists and objects -/

/-- Moves to the next item of a list: whether there is one, or else past the
closing bracket. -/
def nextItem (first : Bool) : Reader Bool := fun s =>
  match skipSpace s with
  | [] => .error (.here .eofList [])
  | ']' :: rest => .ok (false, rest)
  | c :: rest =>
    if first then .ok (true, c :: rest)
    else if c = ',' then
      match skipSpace rest with
      | [] => .error (.here .eofValue [])
      | ']' :: after => .error (.peeked .trailingComma (']' :: after))
      | item => .ok (true, item)
    else .error (.peeked .expectedListEnd (c :: rest))

/-- Moves past the next key of an object, or else past the closing brace. -/
def nextKey (first : Bool) : Reader (Option String) := fun s =>
  let key (s : List Char) : Except Fault (Option String × List Char) :=
    match readString s with
    | .error e => .error e
    | .ok (k, rest) => .ok (some k, rest)
  match skipSpace s with
  | [] => .error (.here .eofObject [])
  | '}' :: rest => .ok (none, rest)
  | c :: rest =>
    if first then
      if c = '"' then key rest else .error (.peeked .keyNotString (c :: rest))
    else if c = ',' then
      match skipSpace rest with
      | [] => .error (.here .eofValue [])
      | '"' :: after => key after
      | '}' :: after => .error (.peeked .trailingComma ('}' :: after))
      | other => .error (.peeked .keyNotString other)
    else .error (.peeked .expectedObjectEnd (c :: rest))

/-- Reads the colon after a key. -/
def readColon : Reader Unit := fun s =>
  match skipSpace s with
  | [] => .error (.here .eofObject [])
  | ':' :: rest => .ok ((), rest)
  | other => .error (.peeked .expectedColon other)

/-- Reads the items left in a list. -/
def readItemsFrom {α : Type} (item : Reader α) : Nat → (first : Bool) → Reader (List α)
  | 0, _, s => .error (.here .eofList s)
  | steps + 1, first, s =>
    match nextItem first s with
    | .error e => .error e
    | .ok (false, rest) => .ok ([], rest)
    | .ok (true, rest) =>
      match item rest with
      | .error e => .error e
      | .ok (x, rest) =>
        match readItemsFrom item steps false rest with
        | .error e => .error e
        | .ok (xs, rest) => .ok (x :: xs, rest)

/-- Reads the items of a list after its opening bracket. -/
def readItems {α : Type} (item : Reader α) : Reader (List α) := fun s =>
  readItemsFrom item (s.length + 1) true s

/-- Reads the members left in an object. -/
def readMembersFrom (item : Reader Value) : Nat → (first : Bool) → Reader (List (String × Value))
  | 0, _, s => .error (.here .eofObject s)
  | steps + 1, first, s =>
    match nextKey first s with
    | .error e => .error e
    | .ok (none, rest) => .ok ([], rest)
    | .ok (some k, rest) =>
      match readColon rest with
      | .error e => .error e
      | .ok ((), rest) =>
        match item rest with
        | .error e => .error e
        | .ok (x, rest) =>
          match readMembersFrom item steps false rest with
          | .error e => .error e
          | .ok (xs, rest) => .ok ((k, x) :: xs, rest)

/-- Reads the members of an object after its opening brace. -/
def readMembers (item : Reader Value) : Reader (List (String × Value)) := fun s =>
  readMembersFrom item (s.length + 1) true s

/-- Gives a result its constructor. -/
def mapRead {α β : Type} (f : α → β) :
    Except Fault (α × List Char) → Except Fault (β × List Char)
  | .error e => .error e
  | .ok (x, rest) => .ok (f x, rest)

/-- Reads a value that is no list and no object, starting with `c`. -/
def readScalar (c : Char) (rest : List Char) : Except Fault (Value × List Char) :=
  if c = 'n' then mapRead (fun _ => .null) (readIdent "ull".toList rest)
  else if c = 't' then mapRead (fun _ => .bool true) (readIdent "rue".toList rest)
  else if c = 'f' then mapRead (fun _ => .bool false) (readIdent "alse".toList rest)
  else if startsNumber c then mapRead .number (readNumber c rest)
  else if c = '"' then mapRead .string (readString rest)
  else .error (.peeked .expectedValue (c :: rest))

/-- Reads any value, in canonical form. -/
def readValue : (depth : Nat) → Reader Value
  | 0, s =>
    match skipSpace s with
    | [] => .error (.here .eofValue [])
    | c :: rest =>
      if c = '[' ∨ c = '{' then .error (.peeked .tooDeep (c :: rest)) else readScalar c rest
  | depth + 1, s =>
    match skipSpace s with
    | [] => .error (.here .eofValue [])
    | c :: rest =>
      if c = '[' then mapRead .array (readItems (readValue depth) rest)
      else if c = '{' then mapRead .ofMembers (readMembers (readValue depth) rest)
      else readScalar c rest

/-! ## Types -/

/-- Reads an integer between two bounds. -/
def readInt (low high : Int) (expected : String) : Reader Int := fun s =>
  match skipSpace s with
  | [] => .error (.here .eofValue [])
  | c :: rest =>
    if startsNumber c then
      match readNumber c rest with
      | .error e => .error e
      | .ok (.int n, after) =>
        if low ≤ n ∧ n ≤ high then .ok (n, after)
        else .error (.here (.wrongValue n expected) after)
      | .ok (.float x, after) =>
        .error (.here (.wrongType (.number (.float x)) expected) after)
    else .error (mismatch expected (c :: rest))

/-- Reads a floating-point number; an integer is rounded to one. -/
def readFloat : Reader Binary64 := fun s =>
  match skipSpace s with
  | [] => .error (.here .eofValue [])
  | c :: rest =>
    if startsNumber c then
      match readNumber c rest with
      | .error e => .error e
      | .ok (.float x, after) => .ok (x, after)
      | .ok (.int n, after) =>
        .ok ((Binary64.ofRatio (n < 0) n.natAbs 1).getD (.zero false), after)
    else .error (mismatch "f64" (c :: rest))

/-- Reads a truth value. -/
def readBool : Reader Bool := fun s =>
  match skipSpace s with
  | [] => .error (.here .eofValue [])
  | 't' :: rest => mapRead (fun _ => true) (readIdent "rue".toList rest)
  | 'f' :: rest => mapRead (fun _ => false) (readIdent "alse".toList rest)
  | other => .error (mismatch "a boolean" other)

/-- Reads a string. -/
def readText : Reader String := fun s =>
  match skipSpace s with
  | [] => .error (.here .eofValue [])
  | '"' :: rest => readString rest
  | other => .error (mismatch "a string" other)

/-- Reads null as absent, and anything else with `item`. -/
def readOptional {α : Type} (item : Reader α) : Reader (Option α) := fun s =>
  match skipSpace s with
  | 'n' :: rest => mapRead (fun _ => none) (readIdent "ull".toList rest)
  | other => mapRead some (item other)

/-- Reads a list. -/
def readList {α : Type} (item : Nat → Reader α) (depth : Nat) : Reader (List α) := fun s =>
  match skipSpace s with
  | [] => .error (.here .eofValue [])
  | '[' :: rest =>
    match depth with
    | 0 => .error (.peeked .tooDeep ('[' :: rest))
    | depth + 1 => readItems (item depth) rest
  | other => .error (mismatch "a sequence" other)

instance : Decode Value := ⟨readValue⟩
instance : Decode String := ⟨fun _ => readText⟩
instance : Decode Bool := ⟨fun _ => readBool⟩
instance : Decode Binary64 := ⟨fun _ => readFloat⟩

instance : Decode Int64 :=
  ⟨fun _ s => mapRead Int64.ofInt (readInt (Word.minInt 64) (Word.maxInt 64) "i64" s)⟩

instance : Decode UInt8 :=
  ⟨fun _ s => mapRead (fun n => UInt8.ofNat n.toNat) (readInt 0 255 "u8" s)⟩

instance {α : Type} [Decode α] : Decode (Option α) :=
  ⟨fun depth => readOptional (Decode.read depth)⟩

instance {α : Type} [Decode α] : Decode (List α) := ⟨readList Decode.read⟩

instance : Encode Value := ⟨.ok⟩
instance : Encode String := ⟨fun s => .ok (.string s)⟩
instance : Encode Bool := ⟨fun b => .ok (.bool b)⟩
instance : Encode Binary64 := ⟨fun x => .ok (.number (.float x))⟩
instance : Encode Int64 := ⟨fun n => .ok (.number (.int n.toInt))⟩
instance : Encode UInt8 := ⟨fun n => .ok (.number (.int n.toNat))⟩

instance {α : Type} [Encode α] : Encode (Option α) where
  toJson
    | none => .ok .null
    | some x => Encode.toJson x

instance {α : Type} [Encode α] : Encode (List α) where
  toJson xs := Value.array <$> xs.mapM Encode.toJson

/-- Reads a whole text. -/
def decode (α : Type) [Decode α] (text : String) : Except ReadError α :=
  let s := text.toList
  match Decode.read maxDepth s with
  | .error fault => .error (fault.place s)
  | .ok (x, rest) =>
    match skipSpace rest with
    | [] => .ok x
    | other => .error ((Fault.peeked .trailingCharacters other).place s)

/-- Writes a value as text, or gives its reason for refusing. -/
def encode {α : Type} [Encode α] (x : α) : Except String String :=
  Value.text <$> Encode.toJson x

end Json
end LaneBus
