import LaneBus.Text

/-! # Paths

A path is a list of names between slashes.  The name `.` stays in a folder and
`..` leaves it.  Where the folder around a path is concerned, a name that stays
counts only at the beginning of a relative path.
-/
namespace LaneBus

/-- A path as it is written. -/
structure Path where
  /-- Whether it starts at the root. -/
  rooted : Bool
  names : List String
  deriving DecidableEq, Repr

namespace Path

/-- The path of a text. -/
def ofString (text : String) : Path where
  rooted := text.toList.head? == some '/'
  names := ((text.toList.splitOnP (· == '/')).filter (· != [])).map String.ofList

/-- The text of a path, which is never empty. -/
def text (p : Path) : String :=
  if p.rooted then "/" ++ Text.join "/" p.names
  else if p.names = [] then "."
  else Text.join "/" p.names

/-- The path without names at its end that stay. -/
def trimmed (p : Path) : Path :=
  match (p.names.reverse.dropWhile (· == ".")).reverse with
  | [] => { p with names := if p.rooted then [] else p.names.take 1 }
  | names => { p with names }

/-- The path of the folder around a path. -/
def around? (p : Path) : Option Path :=
  match p.trimmed.names with
  | [] => none
  | names => some (trimmed { p with names := names.dropLast })

/-- The last name of a path, unless it stays or leaves. -/
def fileName? (p : Path) : Option String :=
  p.trimmed.names.getLast?.filter fun name => name != "." && name != ".."

/-- At most so many folders around a path, outward. -/
def foldersAround : Nat → Path → List Path
  | 0, _ => []
  | fuel + 1, p =>
    match p.around? with
    | none => []
    | some q => q :: foldersAround fuel q

/-- A path and all folders around it, outward. -/
def outward (p : Path) : List Path := p :: foldersAround p.names.length p

end Path
end LaneBus
