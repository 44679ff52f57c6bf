import LaneBus.Json.Decode
import LaneBus.Timestamp.Parser

/-! # Timestamps in JSON

A timestamp is a string.  A text that is no timestamp is a fault right after the
string.
-/
namespace LaneBus
namespace Timestamp

open Json

/-- Reads a timestamp. -/
def read : Reader Timestamp := fun s =>
  match skipSpace s with
  | [] => .error (.here .eofValue [])
  | '"' :: rest =>
    match readString rest with
    | .error e => .error e
    | .ok (text, rest) =>
      match parse text with
      | .error e => .error (.here (.custom e.message) rest)
      | .ok t => .ok (t, rest)
  | other => .error (mismatch "an RFC 3339 formatted date and time string" other)

instance : Decode Timestamp := ⟨fun _ => read⟩
instance : Encode Timestamp := ⟨fun t => .ok (.string t.text)⟩

end Timestamp
end LaneBus
