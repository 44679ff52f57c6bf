import LaneBus.Lane
import LaneBus.Json.Decode

/-! # Lanes in JSON

A lane is its name, in upper case only, or an object with that name as its only
key and null as its value.
-/
namespace LaneBus
namespace Lane

open Json

/-- Reads the name of a lane. -/
def readName : Reader Lane := fun s =>
  match skipSpace s with
  | [] => .error (.here .eofValue [])
  | '"' :: rest =>
    match readString rest with
    | .error e => .error e
    | .ok (text, rest) =>
      match all.find? fun lane => lane.name == text with
      | some lane => .ok (lane, rest)
      | none => .error (.here (.unknownVariant text (all.map name)) rest)
  | other => .error (mismatch "variant identifier" other)

/-- Reads null. -/
def readUnit : Reader Unit := fun s =>
  match skipSpace s with
  | [] => .error (.here .eofValue [])
  | 'n' :: rest => readIdent "ull".toList rest
  | other => .error (mismatch "unit" other)

/-- Reads the only member of an object and its closing brace. -/
def readMember : Reader Lane := fun s => do
  let (lane, s) ← readName s
  let ((), s) ← readColon s
  let ((), s) ← readUnit s
  match skipSpace s with
  | '}' :: rest => .ok (lane, rest)
  | [] => .error (.here .eofObject [])
  | other => .error (.here .expectedValue other)

/-- Reads a lane. -/
def read (depth : Nat) : Reader Lane := fun s =>
  match skipSpace s with
  | [] => .error (.here .eofValue [])
  | c :: rest =>
    if c = '"' then readName (c :: rest)
    else if c = '{' then
      if depth = 0 then .error (.peeked .tooDeep (c :: rest)) else readMember rest
    else .error (.peeked .expectedValue (c :: rest))

instance : Decode Lane := ⟨read⟩
instance : Encode Lane := ⟨fun lane => .ok (.string lane.name)⟩

end Lane
end LaneBus
