import LaneBus.Environment
import LaneBus.Options.Arg
import LaneBus.Text.Blank
import LaneBus.Text.Printed

/-! # Help texts

A help text has a paragraph about the command, a line of usage, and one section
each for positional arguments and options.  The help of the arguments of a
section starts in one column, or, when the names are wide and some help would run
over the line, on lines of its own.
-/
namespace LaneBus

/-- A command line: how it is called and what it takes, besides help. -/
structure Command where
  program : String
  about : Option String := none
  args : List Arg := []

namespace Command

/-- Every argument, help included. -/
def allArgs (c : Command) : List Arg := c.args ++ [Arg.helpArg]

/-- The positional arguments, in order. -/
def positionals (c : Command) : List Arg := c.args.filter Arg.isPositional

/-- The options, help included. -/
def options (c : Command) : List Arg := c.allArgs.filter fun a => !a.isPositional

end Command

namespace Help

/-- The width of a line. -/
def lineWidth : Nat := 100

/-- `n` blanks. -/
def blanks (n : Nat) : String := String.ofList (List.replicate n ' ')

/-- What the help of an argument says about its value. -/
def notes (env : Environment) (a : Arg) : List String :=
  if a.takesValue then
    (a.env.map fun name => "[env: " ++ name ++ "=" ++ (env name).getD "" ++ "]").toList ++
      (a.default.map fun value => "[default: " ++ value ++ "]").toList ++
      (match a.type with
      | .choice names => ["[possible values: " ++ Text.join ", " names ++ "]"]
      | _ => [])
  else []

/-- The help of an argument with the notes about its value. -/
def description (env : Environment) (a : Arg) : String :=
  Text.join " " ((if a.help = "" then [] else [a.help]) ++ notes env a)

/-- The names of an option as they are typed. -/
def names (a : Arg) : List String :=
  (a.short.map fun c => "-" ++ c.toString).toList ++ (a.long.map fun name => "--" ++ name).toList

/-- An argument by its names, each of them changed in some way, in the order of
the name column, where long names stand below each other. -/
def nameColumnWith (change : String → String) (a : Arg) : String :=
  if a.isPositional then a.display
  else
    (if a.short.isNone then "    " else "") ++ Text.join ", " ((names a).map change) ++ a.suffix

/-- The name column of an argument. -/
def nameColumn (a : Arg) : String := nameColumnWith Text.emphasized a

/-- The width of what shows in the name column of an argument. -/
def shownWidth (a : Arg) : Nat := (nameColumnWith id a).length

/-- The width that an argument takes in the name column.  An option is as wide as
if it had a short name before the one it is shown by. -/
def nameWidth (a : Arg) : Nat :=
  if a.isPositional then a.display.length else a.display.length + 4

/-- The width of the name column of a section. -/
def columnWidth (args : List Arg) : Nat := args.foldl (fun w a => max w (nameWidth a)) 2

/-- Whether the help of an argument would run over the line beside a name column
of some width, which takes too much of the line. -/
def overflows (env : Environment) (width : Nat) (a : Arg) : Bool :=
  let taken := width + 12
  taken ≤ lineWidth && 40 * lineWidth < 100 * taken &&
    lineWidth - taken < a.help.length + (Text.join " " (notes env a)).length

/-- A text whose lines behind the first one are indented by `n` blanks. -/
def indented (n : Nat) (s : String) : String :=
  String.ofList (s.toList.flatMap fun c => if c = '\n' then c :: List.replicate n ' ' else [c])

/-- The lines of one argument. -/
def entry (env : Environment) (ownLine : Bool) (width : Nat) (a : Arg) : String :=
  if ownLine then
    "  " ++ nameColumn a ++ "\n" ++ blanks 10 ++ indented 10 (description env a)
  else
    "  " ++ nameColumn a ++ blanks (width + 2 - shownWidth a) ++
      indented (width + 4) (description env a)

/-- A section with its title, if it has any arguments. -/
def sectionText (env : Environment) (title : String) (args : List Arg) : List String :=
  if args.isEmpty then []
  else
    let width := columnWidth args
    let ownLine := args.any (overflows env width)
    [title ++ ":\n" ++ Text.join "\n" (args.map (entry env ownLine width))]

/-- The line of usage: the program if it has a name, its options, those of them
that are required by name, and the positional arguments. -/
def usageLine (c : Command) : String :=
  let isOption (a : Arg) : Bool := !a.isPositional
  let program := if c.program = "" then [] else [Text.emphasized c.program]
  let optional := (c.args.filter fun a => isOption a && !a.required).isEmpty
  let tag := if optional then [] else ["[OPTIONS]"]
  let required := (c.args.filter fun a => isOption a && a.required).map Arg.display
  "Usage: " ++ Text.join " " (program ++ tag ++ required ++ c.positionals.map Arg.display)

/-- The help text of a command. -/
def text (env : Environment) (c : Command) : String :=
  let body := Text.join "\n\n"
    (c.about.toList ++ [usageLine c] ++ sectionText env "Arguments" c.positionals ++
      sectionText env "Options" c.options)
  String.ofList (Text.printed (Text.trimBack body.toList)) ++ "\n"

end Help
end LaneBus
