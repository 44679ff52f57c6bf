import LaneBus.Broker.Connection
import LaneBus.Envelope.Wire
import LaneBus.Failure

/-! # Outgoing records

A value is published by wrapping it in an envelope under the name of its
producer.  The error lane only takes reports of failures, so values are refused
there.  A callback does not send: it queues records in an outbox, which is sent
when the callback succeeds and thrown away when it fails.
-/
namespace LaneBus

open Json

/-- Why an operation of a bus client fails. -/
inductive BusError where
  | stopped
  | errorLaneReserved (topic : String)
  | encode (address reason : String)
  | transport (e : TransportError)
  deriving DecidableEq, Repr

namespace BusError

/-- The text of a reason. -/
def message : BusError → String
  | stopped => "bus client has been stopped"
  | errorLaneReserved topic => "the ERROR lane of `" ++ topic ++ "` only accepts error records"
  | encode address reason => "failed to encode envelope for `" ++ address ++ "`: " ++ reason
  | transport e => e.message

/-- The reason as a failure of the callback that met it. -/
def failure (e : BusError) : Failure where
  kind := "f4sten_core::error::BusError"
  message := e.message
  causes :=
    match e with
    | encode _ reason => [reason]
    | _ => []

end BusError

/-- A record text for an address. -/
structure Outgoing where
  address : String
  payload : String
  deriving DecidableEq, Repr

namespace Outgoing

/-- Wraps an envelope for one of the lanes of a topic. -/
def ofEnvelope {I P : Type} [Encode I] [Encode P] (p : Provenance) (e : Envelope I P)
    (topic : String) (lane : Lane) : Except BusError Outgoing :=
  match Json.encode (e.stamped p) with
  | .error reason => .error (.encode (lane.address topic) reason)
  | .ok payload => .ok { address := lane.address topic, payload }

/-- Wraps a value, which may be derived from an input. -/
def ofValue {U T : Type} [Encode U] [Encode T] (p : Provenance) (now : Timestamp)
    (input : Option U) (value : T) (topic : String) (lane : Lane) : Except BusError Outgoing :=
  if lane.isError then .error (.errorLaneReserved topic)
  else
    let e : Envelope U T :=
      match input with
      | some input => .derived now input value
      | none => .origin now value
    ofEnvelope p e topic lane

end Outgoing

/-- The records that one callback has queued. -/
structure Outbox where
  provenance : Provenance
  /-- The time at which the callback runs. -/
  now : Timestamp
  pending : List Outgoing := []

namespace Outbox

variable {U T : Type} [Encode U] [Encode T]

/-- Queues a value without an input. -/
def publish (o : Outbox) (value : T) (topic : String) (lane : Lane) : Except BusError Outbox :=
  match Outgoing.ofValue o.provenance o.now (none : Option Value) value topic lane with
  | .error e => .error e
  | .ok r => .ok { o with pending := o.pending ++ [r] }

/-- Queues a value derived from an input. -/
def publishDerived (o : Outbox) (input : U) (value : T) (topic : String) (lane : Lane) :
    Except BusError Outbox :=
  match Outgoing.ofValue o.provenance o.now (some input) value topic lane with
  | .error e => .error e
  | .ok r => .ok { o with pending := o.pending ++ [r] }

end Outbox
end LaneBus
