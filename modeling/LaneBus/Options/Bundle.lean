import LaneBus.Options.Arg

/-! # Bundles of options

Every concern of a process contributes a bundle of arguments to its command line.
Two bundles collide when they share a long name, a short name, an argument id or
a group id, or when an argument id of one is the group id of the other.
-/
namespace LaneBus

/-- A bundle of arguments. -/
structure Bundle where
  /-- What it is called in complaints and help texts. -/
  name : String
  /-- What tells bundles apart.  Two of them may be called the same. -/
  key : String := name
  /-- What its values are called. -/
  title : String
  /-- The id of the group of its arguments. -/
  group : Option String := none
  /-- The paragraph about it in help texts. -/
  about : Option String := none
  args : List Arg := []
  /-- The fields of its values and what they are when nothing is given. -/
  defaults : List (String × String) := []
  /-- What is wrong with values that were read, if they are refused. -/
  refuse : Matches → Option String := fun _ => none

/-- How an argument collides with another one, by the name they share. -/
def Arg.collision? (a b : Arg) : Option String :=
  if a.long.isSome && a.long == b.long then a.long.map ("--" ++ ·)
  else if a.short.isSome && a.short == b.short then a.short.map fun c => "-" ++ c.toString
  else if a.id = b.id then some ("argument id `" ++ a.id ++ "`")
  else none

/-- Whether a word of a complaint names an argument: its long name up to an
equals sign, its short name, or its id in any case between angle brackets. -/
def Arg.isNamedBy (a : Arg) (word : String) : Bool :=
  match word.toList with
  | '-' :: '-' :: rest => a.long == some (String.ofList (rest.takeWhile (· != '=')))
  | '-' :: rest => a.short.isSome && rest.head? == a.short
  | s =>
    let bare := ((s.dropWhile (· == '<')).reverse.dropWhile (· == '>')).reverse
    Text.sameIgnoringCase a.id (String.ofList bare)

namespace Bundle

/-- The group id of a bundle if an argument of another bundle has it. -/
def groupTakenBy (b other : Bundle) : Option String :=
  b.group.filter fun group => other.args.any fun a => a.id == group

/-- How a bundle collides with another one: the first pair of arguments that do,
or else their groups. -/
def collision? (b other : Bundle) : Option String :=
  match b.args.findSome? fun a => other.args.findSome? fun a' => a.collision? a' with
  | some flag => some flag
  | none =>
    let group :=
      if b.group.isSome && b.group == other.group then b.group
      else (b.groupTakenBy other).orElse fun () => other.groupTakenBy b
    group.map fun group => "argument group `" ++ group ++ "`"

/-- Whether a word of a complaint names an argument of the bundle. -/
def owns (b : Bundle) (word : String) : Bool := b.args.any fun a => a.isNamedBy word

/-- What the values of a bundle are when nothing is given. -/
def defaultsText (b : Bundle) : String :=
  if b.defaults.isEmpty then b.title
  else
    b.title ++ " \x7b " ++
      Text.join ", " (b.defaults.map fun (field, value) => field ++ ": " ++ value) ++ " \x7d"

end Bundle
end LaneBus
