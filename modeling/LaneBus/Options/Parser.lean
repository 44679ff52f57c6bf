import LaneBus.FileTree.Path
import LaneBus.Options.Help

/-! # Reading a command line

Words are read from left to right.  A word is an option by its long name, a
cluster of options by their short names, the mark behind which everything is
positional, or plain.  An option that takes a value and has none attached is
pending until the next plain word, which becomes its value.  A pending option is
settled, and its value checked, when the next option or positional argument is
known, or at the end; a word that nothing knows is reported at once.
-/
namespace LaneBus

/-- A word of a command line. -/
inductive Word where
  | mark
  | long (name : String) (value : Option String)
  | short (cluster : List Char)
  | plain (text : String)
  deriving DecidableEq, Repr

/-- What a text is as a word. -/
def Word.ofString (text : String) : Word :=
  match text.toList with
  | ['-', '-'] => .mark
  | '-' :: '-' :: rest =>
    let name := rest.takeWhile (· != '=')
    match rest.dropWhile (· != '=') with
    | [] => .long (String.ofList name) none
    | _ :: value => .long (String.ofList name) (some (String.ofList value))
  | '-' :: c :: rest => .short (c :: rest)
  | _ => .plain text

namespace Command

/-- How far a command line has been read. -/
structure Progress where
  found : Matches := {}
  /-- An argument that has been named, and its value if that has come. -/
  pending : Option (Arg × List String) := none
  /-- The number of positional arguments so far. -/
  position : Nat := 0
  /-- Whether everything is positional from here on. -/
  trailing : Bool := false

variable (c : Command) (env : Environment)

/-- The option of a long name. -/
def longArg? (name : String) : Option Arg := c.allArgs.find? fun a => a.long == some name

/-- The option of a short name. -/
def shortArg? (name : Char) : Option Arg := c.allArgs.find? fun a => a.short == some name

/-- Takes an occurrence of an argument with its values. -/
def accept (m : Matches) (a : Arg) (raw : List String) : Except Complaint Matches :=
  if a.takesValue && raw.isEmpty then .error (.missingValue a.display)
  else
    let values := raw.flatMap a.split
    match a.action with
    | .help => .error (.help (Help.text env c))
    | .count => .ok (m.put a.id (m.texts a.id ++ ["+1"]))
    | .switchOn => if m.has a.id then .error (.repeated a.display) else .ok (m.put a.id ["true"])
    | .set =>
      if m.has a.id then .error (.repeated a.display)
      else
        match a.checkAll values with
        | .error e => .error e
        | .ok () => .ok (m.put a.id values)
    | .append =>
      match a.checkAll values with
      | .error e => .error e
      | .ok () => .ok (m.put a.id (m.texts a.id ++ values))

/-- Settles the pending argument. -/
def settle (p : Progress) : Except Complaint Progress :=
  match p.pending with
  | none => .ok p
  | some (a, raw) =>
    match c.accept env p.found a raw with
    | .error e => .error e
    | .ok found => .ok { p with found, pending := none }

/-- Takes an option that has been named, with the value attached to it. -/
def name (p : Progress) (a : Arg) (attached : Option String) : Except Complaint Progress :=
  match c.settle env p with
  | .error e => .error e
  | .ok p =>
    if a.takesValue && attached.isNone then .ok { p with pending := some (a, []) }
    else
      match c.accept env p.found a attached.toList with
      | .error e => .error e
      | .ok found => .ok { p with found }

/-- Takes an option by its long name. -/
def takeLong (p : Progress) (long : String) (attached : Option String) :
    Except Complaint Progress :=
  match c.longArg? long with
  | none => .error (.unknownArgument ("--" ++ long))
  | some a =>
    match a.takesValue, attached with
    | false, some value => .error (.unneededValue a.display value)
    | _, _ => c.name env p a attached

/-- The value attached to a short name, without an equals sign in front. -/
def attachedValue : List Char → Option String
  | [] => none
  | '=' :: value => some (String.ofList value)
  | value => some (String.ofList value)

/-- Takes a cluster of options by their short names. -/
def takeShort (p : Progress) : List Char → Except Complaint Progress
  | [] => .ok p
  | s :: rest =>
    match c.shortArg? s with
    | none => .error (.unknownArgument ("-" ++ s.toString))
    | some a =>
      if a.takesValue then c.name env p a (attachedValue rest)
      else
        match c.name env p a none with
        | .error e => .error e
        | .ok p => takeShort p rest

/-- Takes a positional argument. -/
def takePositional (p : Progress) (text : String) : Except Complaint Progress :=
  match c.positionals[p.position]? with
  | none => .error (.unknownArgument text)
  | some a =>
    match c.settle env p with
    | .error e => .error e
    | .ok p => .ok { p with pending := some (a, [text]), position := p.position + 1 }

/-- Takes a word that names no option. -/
def takePlain (p : Progress) (text : String) : Except Complaint Progress :=
  match p.pending, p.trailing with
  | some (a, []), false => .ok { p with pending := some (a, [text]) }
  | _, _ => c.takePositional env p text

/-- Takes the next word. -/
def take (p : Progress) (text : String) : Except Complaint Progress :=
  if p.trailing then c.takePlain env p text
  else
    match Word.ofString text with
    | .mark => .ok { p with trailing := true }
    | .long name value => c.takeLong env p name value
    | .short cluster => c.takeShort env p cluster
    | .plain text => c.takePlain env p text

/-- Takes all words and settles what is pending. -/
def takeAll (p : Progress) : List String → Except Complaint Matches
  | [] =>
    match c.settle env p with
    | .error e => .error e
    | .ok p => .ok p.found
  | text :: rest =>
    match c.take env p text with
    | .error e => .error e
    | .ok p => takeAll p rest

/-- Adds the values of absent arguments that the environment has. -/
def addEnv (m : Matches) : List Arg → Except Complaint Matches
  | [] => .ok m
  | a :: rest =>
    match m.has a.id, a.env.bind env with
    | false, some value =>
      match c.accept env m a [value] with
      | .error e => .error e
      | .ok m => addEnv m rest
    | _, _ => addEnv m rest

/-- Adds the default values of absent arguments. -/
def addDefaults (m : Matches) : List Arg → Matches
  | [] => m
  | a :: rest =>
    match m.has a.id, a.default with
    | false, some value => addDefaults (m.put a.id [value]) rest
    | _, _ => addDefaults m rest

/-- The first two arguments found that cannot be given together. -/
def conflict? (m : Matches) : Option Complaint :=
  let found := m.values.keys.filterMap fun id => c.args.find? fun a => a.id == id
  found.findSome? fun a =>
    (found.find? fun b => b.id != a.id && (a.conflicts.contains b.id || b.conflicts.contains a.id)).map
      fun b => .conflict a.display b.display

/-- The required arguments that are absent, options first. -/
def missing (m : Matches) : List Arg :=
  let absent := c.args.filter fun a => a.required && !m.has a.id
  absent.filter (fun a => !a.isPositional) ++ absent.filter Arg.isPositional

/-- Reads a command line whose first word is the name of the program. -/
def parse (argv : List String) : Except Complaint Matches :=
  let program := (argv.head?.bind fun path => (Path.ofString path).fileName?).getD c.program
  let c := { c with program }
  match c.takeAll env {} argv.tail with
  | .error e => .error e
  | .ok m =>
    match c.addEnv env m c.args with
    | .error e => .error e
    | .ok m =>
      match c.conflict? m with
      | some e => .error e
      | none =>
        match c.missing m with
        | [] => .ok (addDefaults m c.args)
        | args => .error (.missingRequired (args.map Arg.display))

end Command
end LaneBus
