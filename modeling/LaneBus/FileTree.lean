import LaneBus.FileTree.Path
import LaneBus.Table

/-! # File trees

The files and folders that a process sees, as far as it matters where its log
goes.  A path is followed name by name, from the root or from the folder the
process works in.  Making all folders of a path makes the ones around it first,
and leaves those that were made before one could not be.
-/
namespace LaneBus

/-- Why something cannot be made. -/
inductive FileFault where
  | missing
  | present
  | noFolder
  | longName
  | forbidden
  | nul
  deriving DecidableEq, Repr

/-- The text of a fault. -/
def FileFault.message : FileFault → String
  | missing => "No such file or directory (os error 2)"
  | present => "File exists (os error 17)"
  | noFolder => "Not a directory (os error 20)"
  | longName => "File name too long (os error 36)"
  | forbidden => "Operation not permitted (os error 1)"
  | nul => "file name contained an unexpected NUL byte"

/-- What there is at a place of a tree. -/
inductive FileNode where
  | file
  | folder
  /-- A folder in which nothing can be made. -/
  | closed (fault : FileFault)
  deriving DecidableEq, Repr

/-- A tree of files and folders.  Places are given by the names on the way from
the root. -/
structure FileTree where
  nodes : Table (List String) FileNode := .empty
  /-- The folder in which relative paths start. -/
  home : List String := []

namespace FileTree

variable (t : FileTree)

/-- The greatest number of bytes of a name. -/
def nameBytes : Nat := 255

/-- The number of bytes that a path stays below. -/
def pathBytes : Nat := 4096

/-- What there is at a place.  The root is always there. -/
def node? (place : List String) : Option FileNode :=
  if place = [] then some .folder else t.nodes.get? place

/-- The tree with something at a place. -/
def insert (place : List String) (node : FileNode) : FileTree :=
  { t with nodes := t.nodes.insert place node }

/-- The tree with things of one kind at some places. -/
def insertAll (node : FileNode) (places : List (List String)) : FileTree :=
  places.foldl (fun t place => t.insert place node) t

/-- The number of things in a folder. -/
def entryCount (place : List String) : Nat :=
  (t.nodes.keys.filter fun other => other ≠ [] ∧ other.dropLast = place).length

/-- The folder that names lead to from a folder. -/
def follow (place : List String) : List String → Except FileFault (List String)
  | [] => .ok place
  | name :: rest =>
    if name = "." then follow place rest
    else if name = ".." then follow place.dropLast rest
    else if nameBytes < name.utf8ByteSize then .error .longName
    else
      match t.node? (place ++ [name]) with
      | none => .error .missing
      | some .file => .error .noFolder
      | some _ => follow (place ++ [name]) rest

/-- The folder at a path. -/
def folderAt (p : Path) : Except FileFault (List String) :=
  t.follow (if p.rooted then [] else t.home) p.names

/-- Makes something under a name in a folder. -/
def make (place : List String) (name : String) (node : FileNode) : Except FileFault FileTree :=
  if nameBytes < name.utf8ByteSize then .error .longName
  else
    match t.node? (place ++ [name]), t.node? place with
    | some _, _ => .error .present
    | none, some (.closed fault) => .error fault
    | none, _ => .ok (t.insert (place ++ [name]) node)

/-- Makes the folder at a path in the folder around it. -/
def makeFolder (p : Path) : Except FileFault FileTree :=
  match t.folderAt { p with names := p.names.dropLast } with
  | .error e => .error e
  | .ok place =>
    match p.names.getLast? with
    | none => .error .present
    | some name =>
      if name = "." ∨ name = ".." then .error .present else t.make place name .folder

/-- Makes the folder at a path unless it is there. -/
def ensureFolder (p : Path) : Except FileFault Unit × FileTree :=
  match t.makeFolder p with
  | .ok t => (.ok (), t)
  | .error fault =>
    match t.folderAt p with
    | .ok _ => (.ok (), t)
    | .error _ => (.error fault, t)

/-- Makes the first of some folders, each of which is in the next one, and those
around it where they are missing. -/
def ensureFolders (t : FileTree) : List Path → Except FileFault Unit × FileTree
  | [] => (.ok (), t)
  | p :: around =>
    match t.makeFolder p with
    | .ok t => (.ok (), t)
    | .error .missing =>
      match ensureFolders t around with
      | (.error fault, t) => (.error fault, t)
      | (.ok (), t) => t.ensureFolder p
    | .error _ => t.ensureFolder p

/-- Makes all folders of a path that are not there. -/
def makePath (path : String) : Except FileFault Unit × FileTree :=
  if '\x00' ∈ path.toList then (.error .nul, t)
  else if pathBytes ≤ path.utf8ByteSize then (.error .longName, t)
  else t.ensureFolders (Path.ofString path).outward

/-- Makes a file under a name in the folder at a path, unless it is there. -/
def ensureFile (path name : String) : Except FileFault FileTree :=
  let whole := if path.toList.getLast? = some '/' then path ++ name else path ++ "/" ++ name
  if pathBytes ≤ whole.utf8ByteSize then .error .longName
  else
    match t.folderAt (Path.ofString path) with
    | .error e => .error e
    | .ok place =>
      match t.node? (place ++ [name]) with
      | some .file => .ok t
      | _ => t.make place name .file

end FileTree
end LaneBus
