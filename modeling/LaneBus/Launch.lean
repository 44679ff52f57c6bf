import LaneBus.Envelope.Schema
import LaneBus.FileTree.Standard
import LaneBus.Launch.Options
import LaneBus.Launch.Preselection
import LaneBus.Plugin.Registry

/-! # Launching a plugin

A command line is checked in full before anything happens: which plugin it names,
whether its options go together and can be read, under which identity the plugin
joins the bus, and whether a transport serves its address.  Only then logging is
set up, the bus is connected to, and the plugin is made and run.
-/
namespace LaneBus

/-- Why a launch fails. -/
inductive LaunchError where
  | missingPlugin (usage : String)
  | registry (reason : RegistryError) (usage : String)
  | options (reason : BindError)
  | config (reason : ConfigError) (usage : String)
  | logging (cause : Cause)
  /-- The log could not be written, which ends the process without a message. -/
  | aborted
  | bus (reason : BusError)
  | instantiate (plugin : String) (cause : Cause)
  | run (plugin : String) (cause : Cause)
  deriving DecidableEq, Repr

namespace LaunchError

/-- A text with the help that goes with it, if there is any. -/
def withUsage (text usage : String) : String :=
  if usage = "" then text else text ++ "\n\n" ++ usage

/-- The text of a reason. -/
def message : LaunchError → String
  | missingPlugin usage => "no plugin selected; pass --plugin <id> or --list-plugins\n\n" ++ usage
  | registry reason usage => withUsage reason.message usage
  | options reason => reason.message
  | config reason usage => reason.message ++ "\n\n" ++ usage
  | logging cause => "cannot initialize logging: " ++ cause.text
  | aborted => ""
  | bus reason => "cannot connect to the bus: " ++ reason.message
  | instantiate plugin cause => "cannot instantiate plugin " ++ plugin ++ ": " ++ cause.text
  | run plugin cause => "plugin " ++ plugin ++ " failed: " ++ cause.text

/-- The exit code of a mistake in the configuration. -/
def configCode : Nat := 2

/-- The exit code of a failure after the plugin was configured. -/
def runtimeCode : Nat := 1

/-- The exit code of a process that could not go on. -/
def abortCode : Nat := 101

/-- The exit code of the process. -/
def exitCode : LaunchError → Nat
  | aborted => abortCode
  | bus _ => runtimeCode
  | instantiate _ _ => runtimeCode
  | run _ _ => runtimeCode
  | _ => configCode

/-- Whether the reason is only that the help text was asked for. -/
def isInformational : LaunchError → Bool
  | options reason => reason.isInformational
  | _ => false

end LaunchError

/-- What a successful launch has done. -/
inductive LaunchResult where
  | completed
  | listed (text : String)
  | schema (text : String)
  deriving DecidableEq, Repr

/-- A plugin with everything that it takes to start it. -/
structure Setup where
  entry : PluginEntry
  identity : Identity
  log : LogOptions
  pollTimeout : Nat
  parsed : Binder.Parsed

/-- What a command line asks for. -/
inductive Request where
  | list
  | schema
  | start (setup : Setup)

namespace Launch

/-- The name of the program in help texts. -/
def program : String := "f4sten"

/-- The options of every process, bound. -/
def commonBinder (env : Environment) : Except BindError Binder :=
  ({ program, env : Binder }).bindAll [LaunchOptions.bundle, LogOptions.bundle, BusOptions.bundle]

/-- The plugin that a command line selects, if it selects one. -/
def selected (registry : Registry) (binder : Binder) (argv : List String) :
    Except LaunchError (Option PluginEntry) :=
  match preselect argv with
  | none => .ok none
  | some id =>
    match registry.find id with
    | .error reason => .error (.registry reason (binder.usageOf LaunchOptions.bundle))
    | .ok entry => .ok (some entry)

/-- The values of a bundle, or the reason as that of a failed launch. -/
def valuesOf {α : Type} (parsed : Binder.Parsed) (b : Bundle) (read : Matches → α) :
    Except LaunchError α :=
  match parsed.get b read with
  | .error reason => .error (.options reason)
  | .ok values => .ok values

/-- Checks the identity and the bus address of a plugin. -/
def setup (binder : Binder) (parsed : Binder.Parsed) (fresh : String) (entry : PluginEntry) :
    Except LaunchError Setup := do
  let log ← valuesOf parsed LogOptions.bundle LogOptions.ofMatches
  let bus ← valuesOf parsed BusOptions.bundle BusOptions.ofMatches
  let refused (reason : ConfigError) : LaunchError :=
    .config reason (binder.usageOf BusOptions.bundle)
  match Identity.resolve entry.name bus fresh with
  | .error reason => .error (refused reason)
  | .ok identity =>
    match checkTransport identity.url with
    | .error reason => .error (refused reason)
    | .ok () => .ok { entry, identity, log, pollTimeout := bus.pollTimeout, parsed }

/-- What a command line asks for once its options are bound and read. -/
def requested (binder : Binder) (parsed : Binder.Parsed) (fresh : String) :
    Option PluginEntry → Except LaunchError Request
  | chosen => do
    let options ← valuesOf parsed LaunchOptions.bundle LaunchOptions.ofMatches
    if options.listPlugins then .ok .list
    else if options.showSchema then .ok .schema
    else
      match chosen with
      | none => .error (.missingPlugin (binder.usageOf LaunchOptions.bundle))
      | some entry => Request.start <$> setup binder parsed fresh entry

/-- Checks a command line whose first word is the name of the program. -/
def configure (registry : Registry) (env : Environment) (fresh : String) (argv : List String) :
    Except LaunchError Request :=
  match commonBinder env with
  | .error reason => .error (.options reason)
  | .ok common =>
    match selected registry common argv with
    | .error e => .error e
    | .ok chosen =>
      match common.bindAll (chosen.elim [] PluginEntry.bundles) with
      | .error reason => .error (.options reason)
      | .ok binder =>
        match binder.parse argv with
        | .error reason => .error (.options reason)
        | .ok parsed => requested binder parsed fresh chosen

end Launch

/-- What a launch finds outside of itself. -/
structure Surroundings where
  env : Environment := fun _ => none
  /-- The name of the machine. -/
  host : String
  /-- An instance id that nobody else has. -/
  freshId : String
  /-- The day that log files are named for. -/
  date : String := "1970-01-01"
  /-- The files and folders of the machine. -/
  files : FileTree := .standard
  /-- What is down on a bus. -/
  outage : String → Outage := fun _ => {}
  /-- The passes that a plugin has before it is interrupted. -/
  passes : List Pass

/-- A step of a launch that others can notice. -/
inductive LaunchStep where
  | openedLog (directory : String)
  | connected (identity : Identity)
  | made (entry : PluginEntry) (context : PluginContext)
  | ran (entry : PluginEntry)

namespace Setup

/-- What the log files of a directory are called before their date. -/
def logFileName : String := "f4sten.log"

/-- Opens the log: its directory is made, and in it a file for the day. -/
def openLog (x : Setup) (s : Surroundings) : Except LaunchError (List LaunchStep) × FileTree :=
  match x.log.directory with
  | none => (.ok [], s.files)
  | some directory =>
    match s.files.makePath directory with
    | (.error fault, files) =>
      (.error (.logging ["cannot create log directory " ++ directory, fault.message]), files)
    | (.ok (), files) =>
      match files.ensureFile directory (logFileName ++ "." ++ s.date) with
      | .error _ => (.error .aborted, files)
      | .ok files => (.ok [.openedLog directory], files)

/-- The context of the plugin on a connection. -/
def context (x : Setup) (s : Surroundings) (connection : Connection) : PluginContext where
  identity := x.identity
  provenance := { plugin := x.entry.name, version := x.entry.version, host := s.host }
  connection := connection
  pollTimeout := x.pollTimeout
  parsed := x.parsed

/-- Connects to the bus and makes the plugin, and says which steps were taken. -/
def makePlugin (x : Setup) (s : Surroundings) : Except LaunchError Plugin × List LaunchStep :=
  match Connection.connect x.identity (s.outage x.identity.url) with
  | .error e => (.error (.bus (.transport e)), [])
  | .ok connection =>
    let context := x.context s connection
    let steps := [.connected x.identity, .made x.entry context]
    match x.entry.make context with
    | .error cause => (.error (.instantiate x.entry.name cause), steps)
    | .ok plugin => (.ok plugin, steps)

end Setup

/-- The brokers of this process, by their addresses. -/
abbrev Buses := Table String Broker

/-- The broker of an address. -/
def Buses.at (buses : Buses) (url : String) : Broker := (buses.get? url).getD {}

/-- What has come of a launch. -/
structure Launch where
  result : Except LaunchError LaunchResult
  buses : Buses
  files : FileTree
  steps : List LaunchStep := []
  events : List Event := []

namespace Launch

/-- Makes a plugin and runs it to its end. -/
def start (x : Setup) (s : Surroundings) (buses : Buses) : Launch :=
  match x.openLog s with
  | (.error e, files) => { result := .error e, buses, files }
  | (.ok opened, files) =>
    match x.makePlugin s with
    | (.error e, steps) => { result := .error e, buses, files, steps := opened ++ steps }
    | (.ok plugin, steps) =>
      let url := x.identity.url
      let ended := plugin.run s.passes (buses.at url)
      { result :=
          match ended.result with
          | .error cause => .error (.run x.entry.name cause)
          | .ok () => .ok .completed
        buses := buses.insert url ended.broker
        files
        steps := opened ++ steps ++ [.ran x.entry]
        events := ended.events }

/-- Launches what a command line asks for. -/
def ofCommandLine (registry : Registry) (s : Surroundings) (argv : List String) (buses : Buses) :
    Launch :=
  match configure registry s.env s.freshId argv with
  | .error e => { result := .error e, buses, files := s.files }
  | .ok .list => { result := .ok (.listed registry.describe), buses, files := s.files }
  | .ok .schema => { result := .ok (.schema Envelope.schemaText), buses, files := s.files }
  | .ok (.start x) => start x s buses

end Launch

/-- What a process prints and the code it exits with. -/
structure ProcessEnd where
  code : Nat := 0
  output : String := ""
  errors : String := ""
  deriving DecidableEq, Repr

/-- The end of a process that could not go on. -/
def ProcessEnd.aborted : ProcessEnd := { code := LaunchError.abortCode }

/-- How a process ends after its launch.  Help that was asked for is no error. -/
def ProcessEnd.ofResult : Except LaunchError LaunchResult → ProcessEnd
  | .ok .completed => {}
  | .ok (.listed text) => { output := text ++ "\n" }
  | .ok (.schema text) => { output := text ++ "\n" }
  | .error .aborted => aborted
  | .error e =>
    if e.isInformational then { output := e.message ++ "\n" }
    else { code := e.exitCode, errors := "error: " ++ e.message ++ "\n" }

end LaneBus
