import LaneBus.Plugin.ErrorMonitor
import LaneBus.Plugin.Relay

/-! # Registries of plugins

A registry holds plugins of pairwise different names.  A plugin is looked up by
its name, then by its name without the reserved namespace, then by its short
name; the first of these with a match decides, and it decides only if it has one
match.
-/
namespace LaneBus

/-- Why a registry refuses a registration or a look-up. -/
inductive RegistryError where
  | duplicate (name : String)
  | unknown (id : String) (known : List String)
  | ambiguous (id : String) (candidates : List String)
  deriving DecidableEq, Repr

/-- The text of a refusal. -/
def RegistryError.message : RegistryError → String
  | duplicate name => "plugin `" ++ name ++ "` is registered twice"
  | unknown id known =>
    "unknown plugin `" ++ id ++ "`; registered plugins: " ++ Text.join ", " known
  | ambiguous id candidates =>
    "plugin id `" ++ id ++ "` is ambiguous, candidates: " ++ Text.join ", " candidates

/-- The plugins that a process can run, in the order in which they were
registered. -/
structure Registry where
  entries : List PluginEntry := []

namespace Registry

/-- The full names of the plugins. -/
def names (r : Registry) : List String := r.entries.map PluginEntry.name

/-- Adds a plugin under a name that no other has. -/
def register (r : Registry) (e : PluginEntry) : Except RegistryError Registry :=
  if r.names.contains e.name then .error (.duplicate e.name)
  else .ok { entries := r.entries ++ [e] }

/-- Adds plugins in order. -/
def registerAll (r : Registry) : List PluginEntry → Except RegistryError Registry
  | [] => .ok r
  | e :: rest =>
    match r.register e with
    | .error refusal => .error refusal
    | .ok r => r.registerAll rest

/-- The plugins that an id names, by the first kind of name that has any. -/
def candidates (r : Registry) (id : String) : List PluginEntry :=
  let named (name : PluginEntry → String) : List PluginEntry :=
    r.entries.filter fun e => name e == id
  if !(named PluginEntry.name).isEmpty then named PluginEntry.name
  else if !(named PluginEntry.unqualifiedName).isEmpty then named PluginEntry.unqualifiedName
  else named PluginEntry.shortName

/-- The one plugin that an id names. -/
def find (r : Registry) (id : String) : Except RegistryError PluginEntry :=
  match r.candidates id with
  | [] => .error (.unknown id r.names)
  | [e] => .ok e
  | many => .error (.ambiguous id (many.map PluginEntry.name))

/-- The line about a plugin, its short name in a column of some width. -/
def line (width : Nat) (e : PluginEntry) : String :=
  let padding := String.ofList (List.replicate (width - e.shortName.length) ' ')
  e.shortName ++ padding ++ "  " ++ e.name ++ " " ++ e.version ++ "  " ++ e.description

/-- One line for each plugin.  The column of short names is as wide as the most
bytes that one of them takes. -/
def describe (r : Registry) : String :=
  let width := r.entries.foldl (fun width e => max width e.shortName.utf8ByteSize) 0
  Text.join "\n" (r.entries.map (line width))

/-- The plugins that every process has. -/
def builtin : Registry := { entries := [Relay.entry, ErrorMonitor.entry] }

end Registry
end LaneBus
