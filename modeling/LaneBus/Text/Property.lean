/-! # Properties of characters

A property of characters is given by the code points at which it changes, from
not holding at first.  It holds where an odd number of changes has been passed.
-/
namespace LaneBus
namespace Text

/-- The number of entries at or below `n` in an ascending list. -/
def countUpTo (n : Nat) : List Nat → Nat
  | [] => 0
  | x :: rest => if x ≤ n then countUpTo n rest + 1 else 0

/-- Whether a property with these changes holds of a character. -/
def holdsOf (changes : List Nat) (c : Char) : Bool := countUpTo c.toNat changes % 2 == 1

end Text
end LaneBus
