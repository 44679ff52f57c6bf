import LaneBus.Text.Hidden

/-! # Strings in diagnostics

A string is shown between quotes, with quote and backslash escaped, the usual
short escapes for tab, line feed, carriage return and NUL, and every other
hidden character by its number.
-/
namespace LaneBus
namespace Text

/-- A character as it is shown between quotes. -/
def quotedChar (c : Char) : List Char :=
  if c = '\x00' then ['\\', '0']
  else if c = '\t' then ['\\', 't']
  else if c = '\r' then ['\\', 'r']
  else if c = '\n' then ['\\', 'n']
  else if c = '"' then ['\\', '"']
  else if c = '\\' then ['\\', '\\']
  else if isHidden c then '\\' :: 'u' :: '\x7b' :: Nat.toDigits 16 c.toNat ++ ['\x7d']
  else [c]

/-- A string as it is shown in a diagnostic. -/
def quoted (s : String) : String :=
  String.ofList ('"' :: s.toList.flatMap quotedChar ++ ['"'])

end Text
end LaneBus
