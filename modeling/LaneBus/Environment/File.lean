import LaneBus.Environment
import LaneBus.Text
import LaneBus.Text.Alphanumeric
import LaneBus.Text.Blank

/-! # Environment files

A file of variables has one `name=value` a line, after an optional `export`.  Text
in single quotes is taken as it stands; elsewhere a backslash escapes one
character and a dollar sign stands for the value of a variable.  An open quote
joins a line with the next one, and nothing may be open at the end of the file.
A comment starts with a number sign at the beginning of a line or after a blank.

Reading stops at the first malformed line; what came before it counts.  A NUL in
the value of a variable that is not set yet cannot be passed on, and stops the
process.
-/
namespace LaneBus
namespace Environment
namespace File

/-! ## From the file to its lines -/

/-- The lines of a text, each with the line feed that ends it. -/
def physicalLines : List Char → List (List Char)
  | [] => []
  | c :: rest =>
    if c = '\n' then [c] :: physicalLines rest
    else
      match physicalLines rest with
      | [] => [[c]]
      | line :: lines => (c :: line) :: lines

/-- In what the end of a line falls. -/
inductive LineEnd where
  | complete
  | blank
  | escape
  | single
  | singleEscape
  | double
  | doubleEscape
  deriving DecidableEq, Repr

/-- Where a character leads, outside of quotes and not after a blank. -/
def LineEnd.opening (c : Char) : LineEnd :=
  if c = '\\' then .escape
  else if c = '"' then .double
  else if c = '\'' then .single
  else .complete

/-- Where a character leads. -/
def LineEnd.next (c : Char) : LineEnd → LineEnd
  | complete => if Text.isBlank c ∧ c ≠ '\n' ∧ c ≠ '\r' then .blank else opening c
  | blank => opening c
  | escape => .complete
  | double => if c = '\\' then .doubleEscape else if c = '"' then .complete else .double
  | doubleEscape => .double
  | single => if c = '\\' then .singleEscape else if c = '\'' then .complete else .single
  | singleEscape => .single

/-- The part of a line in front of its comment, and in what its end falls if it
has no comment. -/
def scan (state : LineEnd) : List Char → List Char × Option LineEnd
  | [] => ([], some state)
  | c :: rest =>
    if state = .blank ∧ c = '#' then ([], none)
    else
      let (kept, last) := scan (state.next c) rest
      (c :: kept, last)

/-- A line without its end. -/
def withoutEnd (line : List Char) : List Char :=
  match line.reverse with
  | '\n' :: '\r' :: rest => rest.reverse
  | '\n' :: rest => rest.reverse
  | _ => line

/-- The lines of a file, joined where they go on; `none` is a line that goes on
behind the end of the file. -/
def logicalLines (begun : List Char) (state : LineEnd) :
    List (List Char) → List (Option (List Char))
  | [] => if state = .complete then [] else [none]
  | line :: rest =>
    let text := begun ++ line
    if (Text.trimFront text).head? = some '#' then some [] :: logicalLines [] .complete rest
    else
      match scan state line with
      | (kept, none) => some (begun ++ kept) :: logicalLines [] .complete rest
      | (_, some .complete) => some (withoutEnd text) :: logicalLines [] .complete rest
      | (_, some other) => logicalLines text other rest

/-! ## From a line to a variable -/

/-- How a character of a value is to be taken. -/
inductive Mode where
  | plain
  | single
  | double
  | escape (quoted : Bool)
  /-- In the name of a variable. -/
  | name (quoted : Bool) (read : List Char)
  /-- In the name of a variable in braces. -/
  | braced (quoted : Bool) (read : List Char)
  /-- Behind the value. -/
  | behind
  deriving DecidableEq, Repr

/-- The mode inside or outside of double quotes. -/
def Mode.around (quoted : Bool) : Mode := if quoted then .double else .plain

/-- The value of a variable, nothing when it is not set. -/
def valueOf (env : Environment) (name : List Char) : List Char :=
  ((env.find? (String.ofList name)).getD "").toList

/-- What a character adds to the value, and the mode behind it. -/
def Mode.take (env : Environment) (c : Char) : Mode → Option (List Char × Mode)
  | behind => if c = ' ' ∨ c = '\t' then some ([], .behind) else none
  | escape quoted =>
    if c = 'n' then some (['\n'], .around quoted)
    else if c = '\\' ∨ c = '\'' ∨ c = '"' ∨ c = '$' ∨ c = ' ' then some ([c], .around quoted)
    else none
  | single => if c = '\'' then some ([], .plain) else some ([c], .single)
  | name quoted read =>
    if Text.isAlphanumeric c then some ([], .name quoted (read ++ [c]))
    else if c = '{' ∧ read = [] then some ([], .braced quoted [])
    else if c = '$' then some (valueOf env read, .name quoted [])
    else some (valueOf env read ++ [c], .around quoted)
  | braced quoted read =>
    if c = '}' then some (valueOf env read, .around quoted)
    else some ([], .braced quoted (read ++ [c]))
  | double =>
    if c = '$' then some ([], .name true [])
    else if c = '"' then some ([], .plain)
    else if c = '\\' then some ([], .escape true)
    else some ([c], .double)
  | plain =>
    if c = '$' then some ([], .name false [])
    else if c = '\'' then some ([], .single)
    else if c = '"' then some ([], .double)
    else if c = '\\' then some ([], .escape false)
    else if c = ' ' ∨ c = '\t' then some ([], .behind)
    else some ([c], .plain)

/-- What the end of the line adds to the value. -/
def Mode.finish (env : Environment) : Mode → Option (List Char)
  | plain => some []
  | behind => some []
  | escape false => some []
  | name false read => some (valueOf env read)
  | _ => none

/-- The value that a text stands for. -/
def value? (env : Environment) (mode : Mode) : List Char → Option (List Char)
  | [] => mode.finish env
  | c :: rest =>
    if mode = .behind ∧ c = '#' then some []
    else
      match mode.take env c with
      | none => none
      | some (added, mode) => (value? env mode rest).map (added ++ ·)

/-- A name and what follows it. -/
def name? : List Char → Option (String × List Char)
  | [] => none
  | c :: rest =>
    if c.isAlpha ∨ c = '_' then
      let isPart (c : Char) : Bool := c.isAlphanum || c == '_' || c == '.'
      some (String.ofList (c :: rest.takeWhile isPart), rest.dropWhile isPart)
    else none

/-- What follows an equals sign, which blanks may surround. -/
def afterEquals? (s : List Char) : Option (List Char) :=
  match Text.trimFront s with
  | '=' :: rest => some (Text.trimFront rest)
  | _ => none

/-- The name of an assignment and the text of its value.  The word `export` in
front of a name is skipped, unless it is the name. -/
def assignment? (s : List Char) : Option (String × List Char) :=
  match name? s with
  | none => none
  | some (name, rest) =>
    match afterEquals? rest with
    | some text => some (name, text)
    | none =>
      if name = "export" then
        match name? (Text.trimFront rest) with
        | none => none
        | some (name, rest) => (afterEquals? rest).map fun text => (name, text)
      else none

/-- The variable that a line sets: `none` when the line is malformed, and
`some none` when it sets none. -/
def setting? (env : Environment) (line : List Char) : Option (Option (String × String)) :=
  let text := Text.trimFront (Text.trimBack line)
  if text = [] ∨ text.head? = some '#' then some none
  else
    match assignment? text with
    | none => none
    | some (name, text) =>
      if text.head? = some '#' then some (some (name, ""))
      else (value? env .plain text).map fun value => some (name, String.ofList value)

/-- The environment with what some lines set, unless it cannot be passed on. -/
def supplyAll (env : Environment) : List (Option (List Char)) → Option Environment
  | [] => some env
  | none :: _ => some env
  | some line :: rest =>
    match setting? env line with
    | none => some env
    | some none => supplyAll env rest
    | some (some (name, value)) =>
      if (env name).isNone ∧ '\x00' ∈ value.toList then none
      else supplyAll (env.supply name value) rest

end File

/-- The environment with the variables of a file that were not set, unless one of
them cannot be passed on.  A byte order mark in front of the file is skipped. -/
def supplyFile (env : Environment) (content : String) : Option Environment :=
  let text := (Text.dropFront? "\ufeff" content).getD content
  File.supplyAll env (File.logicalLines [] .complete (File.physicalLines text.toList))

end Environment
end LaneBus
