import LaneBus.Scalar
import LaneBus.Table
import LaneBus.Text.Printed
import LaneBus.Word

/-! # Options and their values

An argument of a command line is an option with a long or short name, or a
positional argument without either.  It takes a value of a type, or none.  The
values found on a command line are kept by the id of their argument.
-/
namespace LaneBus

/-- What the occurrences of an argument do. -/
inductive ArgAction where
  /-- One occurrence sets the value. -/
  | set
  /-- Every occurrence adds a value. -/
  | append
  /-- One occurrence, without a value, switches on. -/
  | switchOn
  /-- Occurrences, without a value, are counted. -/
  | count
  /-- An occurrence shows the help text. -/
  | help
  deriving DecidableEq, Repr

/-- What the value of an argument may be. -/
inductive ValueType where
  | text
  /-- A path is never empty. -/
  | path
  /-- An integer in a range that is narrower than the one it is read in. -/
  | ranged (low high : Int)
  /-- An integer in the range it is read in. -/
  | integer (low high : Int)
  | choice (names : List String)
  deriving DecidableEq, Repr

/-- An argument of a command line. -/
structure Arg where
  id : String
  long : Option String := none
  short : Option Char := none
  /-- How the value is called in help texts. -/
  valueName : String
  help : String := ""
  action : ArgAction := .set
  type : ValueType := .text
  required : Bool := false
  default : Option String := none
  /-- The environment variable that stands in for an absent argument. -/
  env : Option String := none
  /-- The character that separates several values in one. -/
  delimiter : Option Char := none
  /-- The ids of arguments that cannot be given together with this one. -/
  conflicts : List String := []
  deriving DecidableEq, Repr

namespace Arg

/-- Whether the argument is found by its place. -/
def isPositional (a : Arg) : Bool := a.long.isNone && a.short.isNone

/-- Whether the argument takes a value. -/
def takesValue (a : Arg) : Bool := a.action == .set || a.action == .append

/-- What follows the name of an argument. -/
def suffix (a : Arg) : String :=
  if a.takesValue then " <" ++ a.valueName ++ ">"
  else if a.action == .count then "..."
  else ""

/-- An argument as it is shown in messages. -/
def display (a : Arg) : String :=
  match a.long, a.short with
  | some long, _ => "--" ++ long ++ a.suffix
  | none, some short => "-" ++ short.toString ++ a.suffix
  | none, none =>
    if a.required then "<" ++ a.valueName ++ ">" else "[" ++ a.valueName ++ "]"

/-- The help option that every command line has. -/
def helpArg : Arg :=
  { id := "help", long := some "help", short := some 'h', valueName := "HELP"
    help := "Print help", action := .help }

end Arg

/-- What is wrong with a command line. -/
inductive Complaint where
  /-- Not a mistake: the help text was asked for. -/
  | help (text : String)
  | unknownArgument (token : String)
  | missingValue (arg : String)
  | repeated (arg : String)
  | conflict (arg other : String)
  | unneededValue (arg value : String)
  | badChoice (arg value : String)
  | badValue (arg value reason : String)
  | missingRequired (args : List String)
  deriving DecidableEq, Repr

namespace Complaint

/-- A text in quotes, where it stands out. -/
def shown (text : String) : String := "'" ++ Text.emphasized text ++ "'"

/-- The text of a complaint. -/
def message : Complaint → String
  | help text => text
  | unknownArgument token => "unexpected argument " ++ shown token ++ " found"
  | missingValue arg => "a value is required for " ++ shown arg ++ " but none was supplied"
  | repeated arg => "the argument " ++ shown arg ++ " cannot be used multiple times"
  | conflict arg other => "the argument " ++ shown arg ++ " cannot be used with " ++ shown other
  | unneededValue arg value =>
    "unexpected value " ++ shown value ++ " for " ++ shown arg ++ " found; no more were expected"
  | badChoice arg value => "invalid value " ++ shown value ++ " for " ++ shown arg
  | badValue arg value reason =>
    "invalid value " ++ shown value ++ " for " ++ shown arg ++ ": " ++ reason
  | missingRequired _ => "the following required arguments were not provided:"

/-- The argument that a complaint is about. -/
def subject? : Complaint → Option String
  | help _ => none
  | unknownArgument token => some token
  | missingValue arg => some arg
  | repeated arg => some arg
  | conflict arg _ => some arg
  | unneededValue arg _ => some arg
  | badChoice arg _ => some arg
  | badValue arg _ _ => some arg
  | missingRequired args => args.head?

/-- Whether a complaint only shows the help text. -/
def isHelp : Complaint → Bool
  | help _ => true
  | _ => false

end Complaint

namespace Arg

/-- Checks one value of an argument. -/
def check (a : Arg) (value : String) : Except Complaint Unit :=
  match a.type with
  | .text => .ok ()
  | .path => if value = "" then .error (.missingValue a.display) else .ok ()
  | .ranged low high =>
    match Scalar.readInt (Word.minInt 64) (Word.maxInt 64) value with
    | .error e => .error (.badValue a.display value e.message)
    | .ok n =>
      if low ≤ n ∧ n ≤ high then .ok ()
      else
        .error (.badValue a.display value
          (toString n ++ " is not in " ++ toString low ++ "..=" ++ toString high))
  | .integer low high =>
    match Scalar.readInt low high value with
    | .error e => .error (.badValue a.display value e.message)
    | .ok _ => .ok ()
  | .choice names =>
    if names.contains value then .ok ()
    else if value = "" then .error (.missingValue a.display)
    else .error (.badChoice a.display value)

/-- Checks the values of an argument in order. -/
def checkAll (a : Arg) : List String → Except Complaint Unit
  | [] => .ok ()
  | value :: rest =>
    match a.check value with
    | .error e => .error e
    | .ok () => checkAll a rest

/-- The values that a text stands for. -/
def split (a : Arg) (value : String) : List String :=
  match a.delimiter with
  | none => [value]
  | some c => (value.toList.splitOnP (· == c)).map String.ofList

end Arg

/-- The values found for arguments, in the order in which they were given. -/
structure Matches where
  values : Table String (List String) := .empty

namespace Matches

/-- Whether an argument has been found. -/
def has (m : Matches) (id : String) : Bool := (m.values.get? id).isSome

/-- All values of an argument. -/
def texts (m : Matches) (id : String) : List String := (m.values.get? id).getD []

/-- The value of an argument. -/
def text? (m : Matches) (id : String) : Option String := (m.texts id).head?

/-- The integer that an argument was given. -/
def int? (m : Matches) (id : String) : Option Int :=
  (m.text? id).bind fun value =>
    match Scalar.readInt (Word.minInt 64) (Word.maxNat 64) value with
    | .ok n => some n
    | .error _ => none

/-- Whether a switch is on. -/
def isOn (m : Matches) (id : String) : Bool := m.has id

/-- How often a counted option was given. -/
def count (m : Matches) (id : String) : Nat := min (m.texts id).length 255

/-- The matches with the values of an argument. -/
def put (m : Matches) (id : String) (values : List String) : Matches :=
  ⟨m.values.insert id values⟩

end Matches
end LaneBus
