import LaneBus.Options.Binder
import LaneBus.Plugin.Worker

/-! # Plugins

A plugin is made from an identity on the bus, a connection and the options of the
command line.  It either works through what its client polls, or does one thing
and ends.  While a plugin runs, others may append to its broker between passes;
when the passes run out, it is interrupted and stops its client.
-/
namespace LaneBus

/-- Why a plugin cannot be made or has failed: messages, the outermost first. -/
abbrev Cause := List String

/-- The text of a cause. -/
def Cause.text (cause : Cause) : String := Text.join ": " cause

/-- The messages of a reason. -/
def BusError.cause (e : BusError) : Cause := e.message :: e.failure.causes

/-- What a plugin does.  Its callbacks keep a count. -/
inductive Plugin where
  /-- Works with a client once that has been made ready. -/
  | worker (client : Client Nat) (ready : Client Nat → Except BusError (Client Nat))
    (options : WorkerOptions)
  /-- Does one thing to the broker. -/
  | task (act : Broker → Except Cause Unit × Broker × List Event)

/-- What a plugin is made from. -/
structure PluginContext where
  identity : Identity
  provenance : Provenance
  connection : Connection
  /-- Longest wait of a poll, in milliseconds. -/
  pollTimeout : Nat
  parsed : Binder.Parsed

/-- A client for the plugin. -/
def PluginContext.client {σ : Type} (context : PluginContext) : Client σ where
  identity := context.identity
  provenance := context.provenance
  connection := context.connection
  pollTimeout := context.pollTimeout

/-- What becomes of a plugin and its broker. -/
structure PluginEnd where
  result : Except Cause Unit
  broker : Broker
  events : List Event := []

/-- What becomes of a worker.  One that is still going is stopped. -/
def Turn.settle {σ : Type} : Turn σ → PluginEnd
  | going w =>
    match w.session.stop with
    | (.ok (), x) => { result := .ok (), broker := x.broker, events := x.events }
    | (.error e, x) => { result := .error e.cause, broker := x.broker, events := x.events }
  | finished _ x => { result := .ok (), broker := x.broker, events := x.events }
  | failed e x => { result := .error e.cause, broker := x.broker, events := x.events }

namespace Plugin

/-- The worker that a client becomes on a broker. -/
def start (client : Client Nat) (ready : Client Nat → Except BusError (Client Nat))
    (options : WorkerOptions) (b : Broker) : Except BusError (Worker Nat) :=
  match ready client with
  | .error e => .error e
  | .ok client => .ok { session := { client, broker := b, state := 0 }, options }

/-- Runs a plugin for some passes at most. -/
def run (p : Plugin) (passes : List Pass) (b : Broker) : PluginEnd :=
  match p with
  | task act =>
    let (result, broker, events) := act b
    { result, broker, events }
  | worker client ready options =>
    match start client ready options b with
    | .error e => { result := .error e.cause, broker := b }
    | .ok w => (w.drive passes).settle

end Plugin

/-- The version of the plugins that every process has. -/
def builtinVersion : String := "0.2.0"

/-- A plugin that a process can run. -/
structure PluginEntry where
  /-- The fully qualified name. -/
  name : String
  version : String
  description : String
  /-- The options that the plugin reads. -/
  bundles : List Bundle := []
  make : PluginContext → Except Cause Plugin

namespace PluginEntry

/-- The name without the reserved namespace. -/
def unqualifiedName (e : PluginEntry) : String := Identity.unqualified e.name

/-- The name without the reserved namespace and a final main segment. -/
def shortName (e : PluginEntry) : String := Identity.defaultGroup e.name

end PluginEntry
end LaneBus
