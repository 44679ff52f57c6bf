import LaneBus.Plugin

/-! # Error monitors

A monitor logs every error record of a topic as a warning that names the producer
and its host, and counts them.
-/
namespace LaneBus

/-- The options of an error monitor. -/
structure ErrorMonitorOptions where
  /-- The topic whose error lane is read. -/
  topic : String
  deriving DecidableEq, Repr

namespace ErrorMonitor

open Json

/-- The name of the plugin. -/
def name : String := "eu.f4sten.errormonitor.Main"

/-- The topic monitored by default. -/
def defaultTopic : String := "f4sten.relay.in"

/-- The options of an error monitor on the command line. -/
def bundle : Bundle where
  name := "f4sten::plugins::error_monitor::MonitorArgs"
  title := "MonitorArgs"
  group := some "MonitorArgs"
  args := [{
    id := "topic"
    long := some "monitor-topic"
    valueName := "TOPIC"
    help := "Topic whose ERROR lane is monitored"
    default := some defaultTopic }]
  defaults := [("topic", "\"" ++ defaultTopic ++ "\"")]

/-- The options found on a command line. -/
def options (m : Matches) : ErrorMonitorOptions where
  topic := (m.text? "topic").getD defaultTopic

/-- The failure of an envelope without failure details. -/
def missingError : Failure :=
  { kind := "MissingError", message := "record on the ERROR lane carries no error details" }

/-- The warning about an error record. -/
def report (e : Envelope Value Value) : Except Failure Event :=
  match e.err with
  | none => .error missingError
  | some err =>
    .ok {
      severity := .warn
      message := err.kind ++ ": " ++ err.message
      fields := [
        ("producer", e.pluginName.getD "unknown"),
        ("host", e.host.getD "unknown")] }

/-- Reporting as a callback, which counts the reports. -/
def callback : MonitorCallback Nat := fun e reported =>
  match report e with
  | .error f => (.failed f, [], reported)
  | .ok event => (.done, [event], reported + 1)

/-- A monitor that works with a client. -/
def plugin (client : Client Nat) (o : ErrorMonitorOptions) (w : WorkerOptions) : Plugin :=
  .worker client (fun c => c.subscribeErrors o.topic callback) w

/-- Makes an error monitor. -/
def make (context : PluginContext) : Except Cause Plugin :=
  match context.parsed.get bundle options,
    context.parsed.get WorkerOptions.bundle WorkerOptions.ofMatches with
  | .error e, _ => .error [e.message]
  | _, .error e => .error [e.message]
  | .ok o, .ok w => .ok (plugin context.client o w)

/-- The error monitor as a plugin that a process can run. -/
def entry : PluginEntry where
  name := name
  version := builtinVersion
  description := "logs the ERROR lane of a topic"
  bundles := [bundle, WorkerOptions.bundle]
  make := make

end ErrorMonitor
end LaneBus
