import LaneBus.Json.Value
import LaneBus.Lane
import LaneBus.Timestamp

/-! # Envelopes

An envelope carries a payload or a failure from one plugin to the next, together
with the message it was derived from, who produced it, and when it was made and
consumed.  The producer is filled in when the envelope is published; the time of
consumption is the only thing a consumer sets, and only once.
-/
namespace LaneBus

/-- The details of a failure on the error lane. -/
structure ErrorDetails where
  kind : String
  message : String
  trace : String
  deriving DecidableEq, Repr

/-- Who produces the envelopes of a process. -/
structure Provenance where
  plugin : String
  version : String
  host : String
  deriving DecidableEq, Repr

/-- The unit of exchange: `I` is the type of the input it was derived from and
`P` the type of its payload.  A present null is not an absence. -/
structure Envelope (I P : Type) where
  createdAt : Timestamp
  consumedAt : Option Timestamp := none
  pluginName : Option String := none
  pluginVersion : Option String := none
  host : Option String := none
  input : Option I := none
  payload : Option P := none
  err : Option ErrorDetails := none

namespace Envelope

variable {I P : Type}

/-- A message without an input. -/
def origin (now : Timestamp) (payload : P) : Envelope I P :=
  { createdAt := now, payload := some payload }

/-- A message derived from an input. -/
def derived (now : Timestamp) (input : I) (payload : P) : Envelope I P :=
  { createdAt := now, input := some input, payload := some payload }

/-- A report of a failure, which never has a payload. -/
def failed (now : Timestamp) (input : Option I) (err : ErrorDetails) : Envelope I P :=
  { createdAt := now, input, err := some err }

/-- The envelope under the name of its producer. -/
def stamped (e : Envelope I P) (p : Provenance) : Envelope I P :=
  { e with
    pluginName := some p.plugin
    pluginVersion := some p.version
    host := some p.host }

/-- Whether the envelope reports a failure. -/
def isError (e : Envelope I P) : Bool := e.err.isSome

/-- The envelope with its time of consumption, which is kept if it was set. -/
def consume (e : Envelope I P) (at_ : Timestamp) : Envelope I P :=
  { e with consumedAt := some (e.consumedAt.getD at_) }

/-- Whether the envelope keeps to the lane: failures without payload on the
error lane, and no failures elsewhere. -/
def fits (e : Envelope I P) (lane : Lane) : Bool :=
  if lane.isError then e.err.isSome && e.payload.isNone else e.err.isNone

end Envelope

/-! ## Going back along inputs -/

namespace Json
namespace Value

/-- Whether a value is an envelope of `plugin`. -/
def isFrom (plugin : String) (v : Value) : Bool :=
  (v.member? "plugin_name").bind string? == some plugin

mutual
/-- The payload of the first envelope of `plugin` along `v`, its input, the
input of that, and so on. -/
def payloadFrom (plugin : String) : Value → Option Value
  | .object members =>
    if isFrom plugin (.object members) then members.lookup "payload"
    else payloadFromInput plugin members
  | _ => none

/-- The payload of the first envelope of `plugin` along the input among some
members. -/
def payloadFromInput (plugin : String) : List (String × Value) → Option Value
  | [] => none
  | (k, v) :: rest => if k = "input" then payloadFrom plugin v else payloadFromInput plugin rest
end

end Value
end Json

/-- The payload that `plugin` produced somewhere up the chain of inputs. -/
def Envelope.earlierPayload {P : Type} (e : Envelope Json.Value P) (plugin : String) :
    Option Json.Value :=
  e.input.bind (Json.Value.payloadFrom plugin)

end LaneBus
