import LaneBus.Options.Bundle
import LaneBus.Options.Parser

/-! # Binding bundles to one command line

A binder collects bundles that do not collide.  A complaint about the command
line comes with the help of the bundles that declare the argument in question,
or of all bundles when none does.
-/
namespace LaneBus

/-- Why bundles cannot be bound or a command line cannot be read. -/
inductive BindError where
  | duplicateFlag (flag first second usage : String)
  | parse (complaint : Complaint) (message usage : String)
  | extract (bundle message usage : String)
  | notBound (bundle : String)
  deriving DecidableEq, Repr

namespace BindError

/-- The text of an error. -/
def message : BindError → String
  | duplicateFlag flag first second usage =>
    flag ++ " is declared by both " ++ first ++ " and " ++ second ++ "\n\n" ++ usage
  | parse _ text usage => text ++ "\n\n" ++ usage
  | extract bundle text usage => "cannot read " ++ bundle ++ " options: " ++ text ++ "\n\n" ++ usage
  | notBound bundle => bundle ++ " was never bound"

/-- The help that comes with an error. -/
def usage? : BindError → Option String
  | duplicateFlag _ _ _ usage => some usage
  | parse _ _ usage => some usage
  | extract _ _ usage => some usage
  | notBound _ => none

/-- Whether an error only shows the help text. -/
def isInformational : BindError → Bool
  | parse complaint _ _ => complaint.isHelp
  | _ => false

end BindError

/-- The bundles of a command line, in the order in which they were bound. -/
structure Binder where
  program : String
  bundles : List Bundle := []
  env : Environment := fun _ => none

namespace Binder

/-- The command line of some bundles. -/
def commandOf (program : String) (bundles : List Bundle) : Command where
  program
  about := (bundles.filterMap Bundle.about).getLast?
  args := bundles.flatMap Bundle.args

/-- The help of some bundles, with their defaults. -/
def usageText (program : String) (env : Environment) (bundles : List Bundle) : String :=
  Help.text env (commandOf program bundles) ++ "\nDefaults:\n" ++
    String.join (bundles.map fun b => "  " ++ b.name ++ ": " ++ b.defaultsText ++ "\n")

/-- Whether a bundle is bound. -/
def isBound (x : Binder) (b : Bundle) : Bool := x.bundles.any fun bound => bound.key == b.key

/-- The names of the bound bundles. -/
def names (x : Binder) : List String := x.bundles.map Bundle.name

/-- Binds a bundle.  One that is bound already stays, and one that collides with
a bound one is refused. -/
def bind (x : Binder) (b : Bundle) : Except BindError Binder :=
  if x.isBound b then .ok x
  else
    match x.bundles.findSome? fun bound => (bound.collision? b).map fun flag => (bound, flag) with
    | none => .ok { x with bundles := x.bundles ++ [b] }
    | some (bound, flag) =>
      .error (.duplicateFlag flag bound.name b.name
        (Text.join "\n" [usageText x.program x.env [bound], usageText x.program x.env [b]]))

/-- Binds bundles in order. -/
def bindAll (x : Binder) : List Bundle → Except BindError Binder
  | [] => .ok x
  | b :: rest =>
    match x.bind b with
    | .error e => .error e
    | .ok x => bindAll x rest

/-- The help of all bundles. -/
def usage (x : Binder) : String := usageText x.program x.env x.bundles

/-- The help of one bundle, or of all when it is not bound. -/
def usageOf (x : Binder) (b : Bundle) : String :=
  if x.isBound b then usageText x.program x.env [b] else x.usage

/-- One line for each bundle with its defaults. -/
def defaults (x : Binder) : String :=
  Text.join "\n" (x.bundles.map fun b => b.name ++ ": " ++ b.defaultsText)

/-- The first line of what shows of a text. -/
def firstLine (text : String) : String :=
  let shown := Text.printed text.toList
  let line := shown.takeWhile (· != '\n')
  if shown.contains '\n' ∧ line.getLast? = some '\r' then String.ofList line.dropLast
  else String.ofList line

/-- The bundles that declare the argument that a complaint is about. -/
def owners (x : Binder) (complaint : Complaint) : List Bundle :=
  match complaint.subject?.bind Text.firstWord? with
  | none => []
  | some word => x.bundles.filter fun b => b.owns word

/-- A complaint with the help that belongs to it. -/
def explain (x : Binder) (complaint : Complaint) : BindError :=
  if complaint.isHelp then
    .parse complaint complaint.message ("Defaults:\n" ++ x.defaults)
  else
    let owners := x.owners complaint
    .parse complaint (firstLine complaint.message)
      (if owners.isEmpty then x.usage else usageText x.program x.env owners)

/-- A command line that has been read, with the binder that read it. -/
structure Parsed where
  binder : Binder
  found : Matches

/-- Reads a command line whose first word is the name of the program. -/
def parse (x : Binder) (argv : List String) : Except BindError Parsed :=
  match (commandOf x.program x.bundles).parse x.env argv with
  | .error complaint => .error (x.explain complaint)
  | .ok found => .ok { binder := x, found }

/-- The values of a bundle, read by `read`. -/
def Parsed.get {α : Type} (p : Parsed) (b : Bundle) (read : Matches → α) : Except BindError α :=
  if p.binder.isBound b then
    match b.refuse p.found with
    | none => .ok (read p.found)
    | some message =>
      .error (.extract b.name (Text.trim message) (usageText p.binder.program p.binder.env [b]))
  else .error (.notBound b.name)

end Binder
end LaneBus
