/-! # Integers of fixed width

The bounds of the integers that fit into some bits, with and without a sign.
-/
namespace LaneBus
namespace Word

/-- How many values some bits can take. -/
def count (bits : Nat) : Nat := Nat.pow 2 bits

/-- The largest integer without a sign. -/
def maxNat (bits : Nat) : Nat := count bits - 1

/-- The smallest integer with a sign. -/
def minInt (bits : Nat) : Int := -Int.ofNat (count (bits - 1))

/-- The largest integer with a sign. -/
def maxInt (bits : Nat) : Int := Int.ofNat (count (bits - 1) - 1)

example : maxNat 8 = 255 ∧ minInt 8 = -128 ∧ maxInt 8 = 127 := by decide

end Word
end LaneBus
