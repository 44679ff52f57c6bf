import LaneBus.Envelope
import LaneBus.Json.Record
import LaneBus.Timestamp.Wire

/-! # The wire format of envelopes

An envelope is written as an object of its present fields in a fixed order, and
so are failure details.  Both are read as records.  Absent and null are the same
for every field but the input and the payload, where null is a value.
-/
namespace LaneBus

open Json

/-! ## Failure details -/

namespace ErrorDetails

/-- Failure details of which some fields have been read. -/
structure Draft where
  kind : Option String := none
  message : Option String := none
  trace : Option String := none

/-- How failure details are read. -/
def format : RecordFormat Draft ErrorDetails where
  name := "struct ErrorInfo"
  size := 3
  field
    | "error" => some (RecordFormat.slot "error" (·.kind) (fun p x => { p with kind := some x })
        fun _ => readText)
    | "msg" => some (RecordFormat.slot "msg" (·.message) (fun p x => { p with message := some x })
        fun _ => readText)
    | "stacktrace" => some (RecordFormat.slot "stacktrace" (·.trace)
        (fun p x => { p with trace := some x }) fun _ => readText)
    | _ => none
  item
    | 0, p, _, s => mapRead (fun x => { p with kind := some x }) (readText s)
    | 1, p, _, s => mapRead (fun x => { p with message := some x }) (readText s)
    | _, p, _, s => mapRead (fun x => { p with trace := some x }) (readText s)
  optional _ := false
  empty := {}
  finish p :=
    match p.kind, p.message, p.trace with
    | none, _, _ => .error (.missingField "error")
    | _, none, _ => .error (.missingField "msg")
    | _, _, none => .error (.missingField "stacktrace")
    | some kind, some message, some trace => .ok { kind, message, trace }

instance : Decode ErrorDetails := ⟨RecordFormat.read format⟩

/-- Failure details as a value. -/
def toValue (e : ErrorDetails) : Value :=
  .object [("error", .string e.kind), ("msg", .string e.message), ("stacktrace", .string e.trace)]

instance : Encode ErrorDetails := ⟨fun e => .ok e.toValue⟩

end ErrorDetails

/-! ## Envelopes -/

namespace Envelope

variable {I P : Type}

/-- An envelope of which some fields have been read.  A field that is null has
been read, and is absent only for those that cannot be a present null. -/
structure Draft (I P : Type) where
  createdAt : Option Timestamp := none
  consumedAt : Option (Option Timestamp) := none
  pluginName : Option (Option String) := none
  pluginVersion : Option (Option String) := none
  host : Option (Option String) := none
  input : Option I := none
  payload : Option P := none
  err : Option (Option ErrorDetails) := none

/-- The names of the fields, in order. -/
def fieldNames : List String :=
  ["created_at", "consumed_at", "plugin_name", "plugin_version", "host", "input", "payload", "err"]

/-- The step of the field at an index. -/
def fieldStep [Decode I] [Decode P] (name : String) :
    Nat → Draft I P → Except Issue (Nat → Reader (Draft I P))
  | 0 => RecordFormat.slot name (·.createdAt) (fun p x => { p with createdAt := some x })
      fun _ => Timestamp.read
  | 1 => RecordFormat.slot name (·.consumedAt) (fun p x => { p with consumedAt := some x })
      fun _ => readOptional Timestamp.read
  | 2 => RecordFormat.slot name (·.pluginName) (fun p x => { p with pluginName := some x })
      fun _ => readOptional readText
  | 3 => RecordFormat.slot name (·.pluginVersion) (fun p x => { p with pluginVersion := some x })
      fun _ => readOptional readText
  | 4 => RecordFormat.slot name (·.host) (fun p x => { p with host := some x })
      fun _ => readOptional readText
  | 5 => RecordFormat.slot name (·.input) (fun p x => { p with input := some x }) Decode.read
  | 6 => RecordFormat.slot name (·.payload) (fun p x => { p with payload := some x }) Decode.read
  | _ => RecordFormat.slot name (·.err) (fun p x => { p with err := some x })
      fun depth => readOptional (Decode.read depth)

/-- How envelopes are read. -/
def format (I P : Type) [Decode I] [Decode P] : RecordFormat (Draft I P) (Envelope I P) where
  name := "struct Envelope"
  size := fieldNames.length
  field name :=
    if name ∈ fieldNames then some (fieldStep name (fieldNames.idxOf name)) else none
  item i p depth s :=
    match fieldStep "" i p with
    | .error issue => .error (.here issue s)
    | .ok value => value depth s
  optional i := i == 5 || i == 6
  empty := {}
  finish p :=
    match p.createdAt with
    | none => .error (.missingField "created_at")
    | some createdAt =>
      .ok {
        createdAt
        consumedAt := p.consumedAt.join
        pluginName := p.pluginName.join
        pluginVersion := p.pluginVersion.join
        host := p.host.join
        input := p.input
        payload := p.payload
        err := p.err.join }

instance [Decode I] [Decode P] : Decode (Envelope I P) := ⟨RecordFormat.read (format I P)⟩

/-- The member of a field, if it is present. -/
def member (name : String) (value : Option Value) : List (String × Value) :=
  (value.map fun v => (name, v)).toList

/-- A present value as JSON, unless it refuses. -/
def encoded {α : Type} [Encode α] : Option α → Except String (Option Value)
  | none => .ok none
  | some x => some <$> Encode.toJson x

/-- The members of an envelope whose input and payload are given as JSON. -/
def members (e : Envelope I P) (input payload : Option Value) : List (String × Value) :=
  ("created_at", .string e.createdAt.text) ::
    (member "consumed_at" (e.consumedAt.map fun t => .string t.text) ++
      member "plugin_name" (e.pluginName.map .string) ++
      member "plugin_version" (e.pluginVersion.map .string) ++
      member "host" (e.host.map .string) ++
      member "input" input ++
      member "payload" payload ++
      member "err" (e.err.map ErrorDetails.toValue))

instance [Encode I] [Encode P] : Encode (Envelope I P) where
  toJson e :=
    match encoded e.input with
    | .error reason => .error reason
    | .ok input =>
      match encoded e.payload with
      | .error reason => .error reason
      | .ok payload => .ok (.object (e.members input payload))

end Envelope
end LaneBus
