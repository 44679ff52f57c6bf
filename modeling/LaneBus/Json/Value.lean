import LaneBus.Binary64.Shortest

/-! # JSON values and their text

A value is written without blanks, object members in the order in which they are
listed.  A *canonical* value lists the members of every object by the code
points of their keys, each key once.
-/
namespace LaneBus
namespace Json

/-- A JSON number: an integer of 64 bits, or a floating-point number. -/
inductive Number where
  | int (n : Int)
  | float (x : Binary64)
  deriving DecidableEq, Repr

/-- A JSON value. -/
inductive Value where
  | null
  | bool (b : Bool)
  | number (n : Number)
  | string (s : String)
  | array (items : List Value)
  | object (members : List (String × Value))

instance : Inhabited Value := ⟨.null⟩

/-- Whether two numbers are equal: an integer is never equal to a
floating-point number, and the two zeros of the latter are. -/
def Number.same : Number → Number → Bool
  | .int m, .int n => m == n
  | .float x, .float y => x.same y
  | _, _ => false

namespace Value

mutual
/-- Whether two values are equal, member by member in the listed order. -/
def same : Value → Value → Bool
  | .null, .null => true
  | .bool a, .bool b => a == b
  | .number m, .number n => m.same n
  | .string a, .string b => a == b
  | .array xs, .array ys => sameItems xs ys
  | .object xs, .object ys => sameMembers xs ys
  | _, _ => false

/-- Whether two lists of items are equal. -/
def sameItems : List Value → List Value → Bool
  | [], [] => true
  | x :: xs, y :: ys => same x y && sameItems xs ys
  | _, _ => false

/-- Whether two lists of members are equal. -/
def sameMembers : List (String × Value) → List (String × Value) → Bool
  | [], [] => true
  | (k, x) :: xs, (l, y) :: ys => k == l && same x y && sameMembers xs ys
  | _, _ => false
end

instance : BEq Value := ⟨same⟩

/-- Puts a member at its place among members in key order, replacing the one of
its key. -/
def insertMember (key : String) (value : Value) :
    List (String × Value) → List (String × Value)
  | [] => [(key, value)]
  | (k, v) :: rest =>
    if key = k then (key, value) :: rest
    else if key < k then (key, value) :: (k, v) :: rest
    else (k, v) :: insertMember key value rest

/-- The object of some members: in key order, the last of a repeated key. -/
def ofMembers (members : List (String × Value)) : Value :=
  .object (members.foldl (fun sorted (k, v) => insertMember k v sorted) [])

mutual
/-- The canonical form of a value. -/
def canonical : Value → Value
  | .array items => .array (canonicalItems items)
  | .object members => ofMembers (canonicalMembers members)
  | other => other

/-- The canonical forms of some items. -/
def canonicalItems : List Value → List Value
  | [] => []
  | x :: xs => canonical x :: canonicalItems xs

/-- The members with their values in canonical form. -/
def canonicalMembers : List (String × Value) → List (String × Value)
  | [] => []
  | (k, x) :: xs => (k, canonical x) :: canonicalMembers xs
end

/-- The value of a member of an object. -/
def member? (key : String) : Value → Option Value
  | .object members => members.lookup key
  | _ => none

/-- The text of a string value. -/
def string? : Value → Option String
  | .string s => some s
  | _ => none

end Value

/-- The four hexadecimal digits of a control character. -/
def controlDigits (c : Char) : List Char :=
  ['0', '0', Nat.digitChar (c.toNat / 16), Nat.digitChar (c.toNat % 16)]

/-- A character inside a string: quote, backslash and control characters are
escaped, all else stands for itself. -/
def escapeChar (c : Char) : List Char :=
  if c = '"' then ['\\', '"']
  else if c = '\\' then ['\\', '\\']
  else if c = '\x08' then ['\\', 'b']
  else if c = '\x0c' then ['\\', 'f']
  else if c = '\n' then ['\\', 'n']
  else if c = '\r' then ['\\', 'r']
  else if c = '\t' then ['\\', 't']
  else if c.toNat < 32 then '\\' :: 'u' :: controlDigits c
  else [c]

/-- The body of a string and its closing quote. -/
def stringTail : List Char → List Char
  | [] => ['"']
  | c :: rest => escapeChar c ++ stringTail rest

/-- A quoted string. -/
def quote (s : String) : List Char := '"' :: stringTail s.toList

/-- The text of an integer. -/
def intText (n : Int) : List Char :=
  if n < 0 then '-' :: Nat.toDigits 10 n.natAbs else Nat.toDigits 10 n.natAbs

/-- The text of a number. -/
def Number.text : Number → List Char
  | .int n => intText n
  | .float x => x.text

namespace Value

mutual
/-- The text of a value. -/
def chars : Value → List Char
  | .null => "null".toList
  | .bool true => "true".toList
  | .bool false => "false".toList
  | .number n => n.text
  | .string s => quote s
  | .array items => '[' :: itemsText items
  | .object members => '{' :: membersText members

/-- The text of the items of an array and its closing bracket. -/
def itemsText : List Value → List Char
  | [] => [']']
  | [x] => chars x ++ [']']
  | x :: xs => chars x ++ ',' :: itemsText xs

/-- The text of the members of an object and its closing brace. -/
def membersText : List (String × Value) → List Char
  | [] => ['}']
  | [(k, x)] => quote k ++ ':' :: chars x ++ ['}']
  | (k, x) :: xs => quote k ++ ':' :: chars x ++ ',' :: membersText xs
end

/-- The text of a value, as a string. -/
def text (v : Value) : String := String.ofList v.chars

end Value
end Json
end LaneBus
