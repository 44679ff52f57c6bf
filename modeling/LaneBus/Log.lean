import LaneBus.Text

/-! # Logging

Events have a level, a message and named fields.  A process logs the events at
or above the level it was given; the level `critical` has no events of its own
and stands for errors only.
-/
namespace LaneBus

/-- The level of an event, from the least to the most urgent. -/
inductive Severity where
  | trace
  | debug
  | info
  | warn
  | error
  deriving DecidableEq, Repr

namespace Severity

/-- Every severity, the least urgent first. -/
def all : List Severity := [trace, debug, info, warn, error]

/-- The name of a severity in settings. -/
def name : Severity → String
  | trace => "trace"
  | debug => "debug"
  | info => "info"
  | warn => "warn"
  | error => "error"

/-- How urgent a severity is. -/
def rank : Severity → Nat
  | trace => 0
  | debug => 1
  | info => 2
  | warn => 3
  | error => 4

end Severity

/-- An event. -/
structure Event where
  severity : Severity
  message : String
  fields : List (String × String) := []
  deriving DecidableEq, Repr

/-- The lowest level that a process logs. -/
inductive LogLevel where
  | trace
  | debug
  | info
  | warn
  | error
  | critical
  deriving DecidableEq, Repr

namespace LogLevel

/-- Every level, in declaration order. -/
def all : List LogLevel := [trace, debug, info, warn, error, critical]

/-- The name of a level on the command line. -/
def name : LogLevel → String
  | trace => "trace"
  | debug => "debug"
  | info => "info"
  | warn => "warn"
  | error => "error"
  | critical => "critical"

/-- The name of a level in the list of defaults. -/
def title : LogLevel → String
  | trace => "Trace"
  | debug => "Debug"
  | info => "Info"
  | warn => "Warn"
  | error => "Error"
  | critical => "Critical"

/-- The level of a name. -/
def ofName? (ignoreCase : Bool) (text : String) : Option LogLevel :=
  all.find? fun level =>
    if ignoreCase then Text.sameIgnoringCase level.name text else level.name == text

/-- The text reported for a name that is no level. -/
def unknownMessage (text : String) : String := "invalid variant: " ++ text

/-- The least urgent severity that a level lets through. -/
def severity : LogLevel → Severity
  | trace => .trace
  | debug => .debug
  | info => .info
  | warn => .warn
  | error => .error
  | critical => .error

/-- The setting that a level stands for. -/
def directive (level : LogLevel) : String := level.severity.name

/-- Whether a level lets a severity through. -/
def allows (level : LogLevel) (severity : Severity) : Bool :=
  level.severity.rank ≤ severity.rank

end LogLevel
end LaneBus
