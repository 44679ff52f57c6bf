import LaneBus.Text

/-! # Finding the plugin before the command line is known

Which options a command line may have depends on the plugin that it names.  So
the plugin is looked for first, in a scan that knows its option and no other.
-/
namespace LaneBus

/-- The id of a plugin in a word that names and gives it: behind the long name
and an equals sign, or behind the short name, where equals signs are skipped. -/
def attachedPlugin? (word : String) : Option String :=
  match Text.dropFront? "--plugin=" word with
  | some id => some id
  | none =>
    match Text.dropFront? "-p" word with
    | none => none
    | some id =>
      match id.toList with
      | [] => none
      | '-' :: _ => none
      | rest => some (String.ofList (rest.dropWhile (· == '=')))

/-- The plugin that some words select. -/
def selectPlugin : List String → Option String
  | [] => none
  | word :: rest =>
    if word = "--" then none
    else if word = "--plugin" ∨ word = "-p" then rest.head?
    else
      match attachedPlugin? word with
      | some id => some id
      | none => selectPlugin rest

/-- The plugin that a command line selects, whose first word is the name of the
program. -/
def preselect (argv : List String) : Option String := selectPlugin argv.tail

end LaneBus
