import LaneBus.Json.Value

/-! # Indented JSON

A value with every item and member on a line of its own, two blanks further in
than the line that opens the array or object around it.  Empty arrays and
objects stay closed.
-/
namespace LaneBus
namespace Json
namespace Value

/-- A line feed and the blanks of a line that stands `depth` levels in. -/
def newLine (depth : Nat) : List Char := '\n' :: List.replicate (2 * depth) ' '

mutual
/-- The indented text of a value that opens `depth` levels in. -/
def prettyChars (depth : Nat) : Value → List Char
  | .array [] => ['[', ']']
  | .array items => '[' :: prettyItems depth items
  | .object [] => ['{', '}']
  | .object members => '{' :: prettyMembers depth members
  | other => other.chars

/-- The items of an array that opens `depth` levels in, and its closing bracket. -/
def prettyItems (depth : Nat) : List Value → List Char
  | [] => newLine depth ++ [']']
  | [x] => newLine (depth + 1) ++ prettyChars (depth + 1) x ++ newLine depth ++ [']']
  | x :: xs => newLine (depth + 1) ++ prettyChars (depth + 1) x ++ ',' :: prettyItems depth xs

/-- The members of an object that opens `depth` levels in, and its closing brace. -/
def prettyMembers (depth : Nat) : List (String × Value) → List Char
  | [] => newLine depth ++ ['}']
  | [(k, x)] =>
    newLine (depth + 1) ++ quote k ++ ':' :: ' ' :: prettyChars (depth + 1) x ++
      newLine depth ++ ['}']
  | (k, x) :: xs =>
    newLine (depth + 1) ++ quote k ++ ':' :: ' ' :: prettyChars (depth + 1) x ++
      ',' :: prettyMembers depth xs
end

/-- The indented text of a value. -/
def pretty (v : Value) : String := String.ofList (v.prettyChars 0)

end Value
end Json
end LaneBus
