import LaneBus.Json.Pretty

/-! # The schema of envelopes

The JSON schema that other programs check envelopes against.
-/
namespace LaneBus
namespace Envelope

open Json

/-- A member whose type is one of `types`. -/
private def ofTypes (types : List String) : String × Value :=
  ("type",
    match types with
    | [type] => .string type
    | types => .array (types.map .string))

/-- A text that may be null. -/
private def optionalText : Value := .object [ofTypes ["string", "null"]]

/-- The schema of failure details. -/
private def errorSchema : Value := .object [
  ("description", .string "Error details carried by ERROR-lane envelopes."),
  ofTypes ["object"],
  ("properties", .object [
    ("error", .object [
      ("description", .string "Kind of the failure, usually the Rust type name of the error."),
      ofTypes ["string"]]),
    ("msg", .object [ofTypes ["string"]]),
    ("stacktrace", .object [ofTypes ["string"]])]),
  ("required", .array [.string "error", .string "msg", .string "stacktrace"])]

/-- The schema of an envelope. -/
def schema : Value := .object [
  ("$schema", .string "https://json-schema.org/draft/2020-12/schema"),
  ("title", .string "Envelope"),
  ("description", .string ("The unit of exchange on every topic.\n\n" ++
    "Producer provenance is filled in by the bus client when the envelope is\n" ++
    "published. `consumed_at` is the only field a consumer sets, and it is set\n" ++
    "at most once per instance.")),
  ofTypes ["object"],
  ("properties", .object [
    ("consumed_at", .object [ofTypes ["string", "null"], ("format", .string "date-time")]),
    ("created_at", .object [ofTypes ["string"], ("format", .string "date-time")]),
    ("err", .object [
      ("anyOf", .array [
        .object [("$ref", .string "#/$defs/ErrorInfo")],
        .object [ofTypes ["null"]]])]),
    ("host", optionalText),
    ("input", .bool true),
    ("payload", .bool true),
    ("plugin_name", optionalText),
    ("plugin_version", optionalText)]),
  ("required", .array [.string "created_at"]),
  ("$defs", .object [("ErrorInfo", errorSchema)])]

/-- The text of the schema. -/
def schemaText : String := schema.pretty

end Envelope
end LaneBus
