import LaneBus.Json.Decode

/-! # Records

A record is read from an object whose members come in any order, each known one
at most once, unknown ones being skipped; or from a list of all its fields in
order.  The fields are checked while they are read, so that the first fault in
text order is the one reported; a missing field is reported at the end of the
record.
-/
namespace LaneBus
namespace Json

/-- A record of named fields that is being read: a draft `σ`, the
fields that may come next, and the result once all have come. -/
structure RecordFormat (σ α : Type) where
  /-- What a record of this kind is called. -/
  name : String
  /-- The number of fields. -/
  size : Nat
  /-- How the value of a known field goes into the draft.  A field that
  has come already is refused. -/
  field : String → Option (σ → Except Issue (Nat → Reader σ))
  /-- How the field at an index of a list is read. -/
  item : Nat → σ → Nat → Reader σ
  /-- Whether a list may end before the field at an index. -/
  optional : Nat → Bool
  /-- The draft before the first field. -/
  empty : σ
  /-- The record of a draft, or what it lacks. -/
  finish : σ → Except Issue α

namespace RecordFormat

/-- The text after a refused record as far as it belongs to the record. -/
def afterRefusal (s : List Char) : List Char :=
  match skipSpace s with
  | '}' :: rest => rest
  | other => other

variable {σ α : Type}

/-- Reads the members left in an object. -/
def readMembersFrom (f : RecordFormat σ α) (depth : Nat) : Nat → (first : Bool) → σ → Reader α
  | 0, _, _, s => .error (.here .eofObject s)
  | steps + 1, first, acc, s =>
    match nextKey first s with
    | .error e => .error e
    | .ok (none, rest) =>
      match f.finish acc with
      | .error issue => .error (.here issue rest)
      | .ok x => .ok (x, rest)
    | .ok (some k, rest) =>
      match f.field k with
      | none =>
        match readColon rest with
        | .error e => .error e
        | .ok ((), rest) =>
          match skipValue rest with
          | .error e => .error e
          | .ok ((), rest) => readMembersFrom f depth steps false acc rest
      | some step =>
        match step acc with
        | .error issue => .error (.here issue (afterRefusal rest))
        | .ok value =>
          match readColon rest with
          | .error e => .error e
          | .ok ((), rest) =>
            match value depth rest with
            | .error e => .error e
            | .ok (acc, rest) => readMembersFrom f depth steps false acc rest

/-- Moves past the end of a list of fields. -/
def endItems : Reader Unit := fun s =>
  match skipSpace s with
  | [] => .error (.here .eofList [])
  | ']' :: rest => .ok ((), rest)
  | ',' :: rest =>
    match skipSpace rest with
    | ']' :: after => .error (.peeked .trailingComma (']' :: after))
    | other => .error (.peeked .trailingCharacters other)
  | other => .error (.peeked .trailingCharacters other)

/-- The first field at or after an index that a list may not lack, of `left`
fields in all. -/
def firstRequired (f : RecordFormat σ α) : (left : Nat) → Nat → Option Nat
  | 0, _ => none
  | left + 1, i => if f.optional i then firstRequired f left (i + 1) else some i

/-- Reads the `left` last fields of a list, from index `i` on. -/
def readItemsFrom (f : RecordFormat σ α) (depth : Nat) : (left : Nat) → Nat → σ → Reader α
  | 0, _, acc, s =>
    match endItems s with
    | .error e => .error e
    | .ok ((), rest) =>
      match f.finish acc with
      | .error issue => .error (.here issue rest)
      | .ok x => .ok (x, rest)
  | left + 1, i, acc, s =>
    match nextItem (i == 0) s with
    | .error e => .error e
    | .ok (false, rest) =>
      match firstRequired f (left + 1) i with
      | some i =>
        .error (.here (.wrongLength i (f.name ++ " with " ++ f.size.repr ++ " elements")) rest)
      | none =>
        match f.finish acc with
        | .error issue => .error (.here issue rest)
        | .ok x => .ok (x, rest)
    | .ok (true, rest) =>
      match f.item i acc depth rest with
      | .error e => .error e
      | .ok (acc, rest) => readItemsFrom f depth left (i + 1) acc rest

/-- Reads a record. -/
def read (f : RecordFormat σ α) (depth : Nat) : Reader α := fun s =>
  match skipSpace s with
  | [] => .error (.here .eofValue [])
  | c :: rest =>
    if c = '[' then
      match depth with
      | 0 => .error (.peeked .tooDeep (c :: rest))
      | depth + 1 => readItemsFrom f depth f.size 0 f.empty rest
    else if c = '{' then
      match depth with
      | 0 => .error (.peeked .tooDeep (c :: rest))
      | depth + 1 => readMembersFrom f depth (rest.length + 1) true f.empty rest
    else .error (mismatch f.name (c :: rest))

/-- The step of a field: its value goes into the draft unless one is
there already. -/
def slot {β : Type} (name : String) (get : σ → Option β) (set : σ → β → σ)
    (value : Nat → Reader β) : σ → Except Issue (Nat → Reader σ) := fun acc =>
  if (get acc).isSome then .error (.duplicateField name)
  else .ok fun depth s => mapRead (set acc) (value depth s)

end RecordFormat

end Json
end LaneBus
