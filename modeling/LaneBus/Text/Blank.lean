/-! # Blank characters

The characters with the white-space property: controls from tab to carriage
return, the next-line control, the spaces, and the line and paragraph
separators.
-/
namespace LaneBus
namespace Text

/-- Whether a character is white space. -/
def isBlank (c : Char) : Bool :=
  let n := c.toNat
  (9 ≤ n && n ≤ 13) || n == 0x20 || n == 0x85 || n == 0xa0 || n == 0x1680 ||
    (0x2000 ≤ n && n ≤ 0x200a) || n == 0x2028 || n == 0x2029 || n == 0x202f || n == 0x205f ||
    n == 0x3000

/-- The text from its first character that is not blank. -/
def trimFront (s : List Char) : List Char := s.dropWhile isBlank

/-- The text up to its last character that is not blank. -/
def trimBack (s : List Char) : List Char := (s.reverse.dropWhile isBlank).reverse

/-- A string without blanks at either end. -/
def trim (s : String) : String := String.ofList (trimBack (trimFront s.toList))

/-- The first run of characters that are not blank. -/
def firstWord? (s : String) : Option String :=
  let word := (trimFront s.toList).takeWhile fun c => !isBlank c
  if word.isEmpty then none else some (String.ofList word)

end Text
end LaneBus
