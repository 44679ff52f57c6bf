import LaneBus.Identity
import LaneBus.Log
import LaneBus.Options.Bundle

/-! # The options of every process

Whatever plugin it runs, a process has options that select the plugin, set up
logging and connect to the bus.
-/
namespace LaneBus

/-- What a process is asked to do. -/
structure LaunchOptions where
  /-- The id of the plugin to run. -/
  plugin : Option String := none
  /-- List the plugins instead. -/
  listPlugins : Bool := false
  /-- Print the schema of envelopes instead. -/
  showSchema : Bool := false
  deriving DecidableEq, Repr

namespace LaunchOptions

/-- The id of the option that selects the plugin. -/
def pluginId : String := "plugin"

/-- The option that selects the plugin. -/
def pluginArg : Arg where
  id := pluginId
  long := some "plugin"
  short := some 'p'
  valueName := "PLUGIN"
  help := "Plugin to run: fully qualified name, name without `eu.f4sten.`, or short name"

/-- The options on the command line. -/
def bundle : Bundle where
  name := "f4sten::cli::LoaderArgs"
  title := "LoaderArgs"
  group := some "LoaderArgs"
  about := some "Options of the launcher itself"
  args := [
    pluginArg,
    { id := "list_plugins"
      long := some "list-plugins"
      valueName := "LIST_PLUGINS"
      help := "Print the registered plugins and exit"
      action := .switchOn },
    { id := "envelope_schema"
      long := some "envelope-schema"
      valueName := "ENVELOPE_SCHEMA"
      help := "Print the JSON schema of the envelope wire format and exit"
      action := .switchOn }]
  defaults := [("plugin", "None"), ("list_plugins", "false"), ("envelope_schema", "false")]

/-- The options found on a command line. -/
def ofMatches (m : Matches) : LaunchOptions where
  plugin := m.text? pluginId
  listPlugins := m.isOn "list_plugins"
  showSchema := m.isOn "envelope_schema"

end LaunchOptions

/-- Where and from which level on a process logs. -/
structure LogOptions where
  level : LogLevel := .info
  /-- The directory of the log file that replaces the standard error. -/
  directory : Option String := none
  deriving DecidableEq, Repr

namespace LogOptions

/-- The options on the command line. -/
def bundle : Bundle where
  name := "f4sten::cli::LogArgs"
  title := "LogArgs"
  group := some "LogArgs"
  args := [
    { id := "log_level"
      long := some "log-level"
      valueName := "LOG_LEVEL"
      help := "Lowest level that gets logged"
      type := .choice (LogLevel.all.map LogLevel.name)
      default := some LogLevel.info.name },
    { id := "log_dir"
      long := some "log-dir"
      valueName := "LOG_DIR"
      help := "Write a daily rolling log file into this directory instead of stderr"
      type := .path }]
  defaults := [("log_level", LogLevel.info.title), ("log_dir", "None")]

/-- The options found on a command line. -/
def ofMatches (m : Matches) : LogOptions where
  level := ((m.text? "log_level").bind (LogLevel.ofName? false)).getD .info
  directory := m.text? "log_dir"

end LogOptions

namespace BusOptions

/-- The variable that stands in for the bus address. -/
def urlVariable : String := "F4STEN_KAFKA_URL"

/-- The options on the command line. -/
def bundle : Bundle where
  name := "f4sten_core::identity::BusArgs"
  title := "BusArgs"
  group := some "BusArgs"
  about := some "Bus connection options shared by every plugin"
  args := [
    { id := "kafka_url"
      long := some "kafka-url"
      valueName := "KAFKA_URL"
      help := "Bootstrap address of the message bus (e.g. memory://local)"
      env := some urlVariable },
    { id := "group_id"
      long := some "kafka-group-id"
      valueName := "GROUP_ID"
      help := "Consumer group to join instead of the one derived from the plugin name" },
    { id := "instance_id"
      long := some "instance-id"
      valueName := "INSTANCE_ID"
      help := "Discriminator appended to the group id to form the client id" },
    { id := "poll_timeout_ms"
      long := some "poll-timeout-ms"
      valueName := "POLL_TIMEOUT_MS"
      help := "Longest time in milliseconds a single poll waits for records"
      type := .integer 0 (Word.maxNat 64)
      default := some "1000" }]
  defaults := [
    ("kafka_url", "None"), ("group_id", "None"), ("instance_id", "None"),
    ("poll_timeout_ms", "1000")]

/-- The options found on a command line. -/
def ofMatches (m : Matches) : BusOptions where
  url := m.text? "kafka_url"
  group := m.text? "group_id"
  instanceId := m.text? "instance_id"
  pollTimeout := ((m.int? "poll_timeout_ms").getD 1000).toNat

end BusOptions
end LaneBus
