import LaneBus.Plugin

/-! # Relays

A relay publishes the payload of every envelope of one topic on another topic, on
the same lane and derived from that envelope.  An envelope whose payload is
absent or null is a failure.  The two topics must differ.
-/
namespace LaneBus

/-- The options of a relay. -/
structure RelayOptions where
  /-- The topic to consume. -/
  input : String
  /-- The topic that payloads are forwarded to. -/
  output : String
  deriving DecidableEq, Repr

namespace Relay

open Json

/-- The name of the plugin. -/
def name : String := "eu.f4sten.relay.Main"

/-- The topic consumed by default. -/
def defaultInput : String := "f4sten.relay.in"

/-- The topic forwarded to by default. -/
def defaultOutput : String := "f4sten.relay.out"

/-- The options of a relay on the command line. -/
def bundle : Bundle where
  name := "f4sten::plugins::relay::RelayArgs"
  title := "RelayArgs"
  group := some "RelayArgs"
  args := [
    { id := "input"
      long := some "relay-in"
      valueName := "INPUT"
      help := "Topic to consume"
      default := some defaultInput },
    { id := "output"
      long := some "relay-out"
      valueName := "OUTPUT"
      help := "Topic the payloads are forwarded to"
      default := some defaultOutput }]
  defaults := [
    ("input", "\"" ++ defaultInput ++ "\""), ("output", "\"" ++ defaultOutput ++ "\"")]

/-- The options found on a command line. -/
def options (m : Matches) : RelayOptions where
  input := (m.text? "input").getD defaultInput
  output := (m.text? "output").getD defaultOutput

/-- The failure of an envelope without payload. -/
def nullPayload : Failure :=
  { kind := "NullPayload", message := "relay cannot forward an envelope without payload" }

/-- Queues the payload of an envelope for a topic. -/
def forward (e : Envelope Value Value) (lane : Lane) (outbox : Outbox) (output : String) :
    Except Failure Outbox :=
  match e.payload with
  | none => .error nullPayload
  | some .null => .error nullPayload
  | some payload =>
    match outbox.publishDerived e payload output lane with
    | .ok outbox => .ok outbox
    | .error reason => .error reason.failure

/-- Forwarding as a callback. -/
def callback {σ : Type} (output : String) : Callback σ Value Value := fun e lane outbox state =>
  match forward e lane outbox output with
  | .ok outbox => (.done, outbox, state)
  | .error f => (.failed f, outbox, state)

/-- A relay that works with a client. -/
def plugin (client : Client Nat) (o : RelayOptions) (w : WorkerOptions) : Plugin :=
  .worker client (fun c => c.subscribe o.input (callback o.output)) w

/-- Makes a relay. -/
def make (context : PluginContext) : Except Cause Plugin :=
  match context.parsed.get bundle options,
    context.parsed.get WorkerOptions.bundle WorkerOptions.ofMatches with
  | .error e, _ => .error [e.message]
  | _, .error e => .error [e.message]
  | .ok o, .ok w =>
    if o.input = o.output then
      .error ["--relay-in and --relay-out are both `" ++ o.input ++ "`"]
    else .ok (plugin context.client o w)

/-- The relay as a plugin that a process can run. -/
def entry : PluginEntry where
  name := name
  version := builtinVersion
  description := "forwards payloads between two topics"
  bundles := [bundle, WorkerOptions.bundle]
  make := make

end Relay
end LaneBus
