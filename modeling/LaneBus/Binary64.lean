/-! # Finite binary floating point

A number of the 64-bit binary format is a sign, a significand below 2^53 and an
exponent from -1074 to 971, and stands for significand times two to the
exponent.  Every operation is exact in natural numbers followed by one rounding
to the nearest such number, a tie going to the even significand; a result too
large for the format is `none`.
-/
namespace LaneBus

/-- A finite number of the 64-bit binary format. -/
structure Binary64 where
  negative : Bool
  significand : Nat
  exponent : Int
  deriving DecidableEq, Repr

namespace Binary64

/-- The exponent of the smallest positive number. -/
def minExponent : Int := -1074

/-- The largest exponent. -/
def maxExponent : Int := 971

/-- Zero, of the given sign. -/
def zero (negative : Bool) : Binary64 := ⟨negative, 0, minExponent⟩

/-- Whether the number is zero, of either sign. -/
def isZero (x : Binary64) : Bool := x.significand == 0

/-- The number with the other sign. -/
def neg (x : Binary64) : Binary64 := { x with negative := !x.negative }

/-- Whether two numbers are equal; the zeros are. -/
def same (x y : Binary64) : Bool := x == y || (x.isZero && y.isZero)

/-- `num / den` as the nearest integer, a tie going to the even one. -/
def roundQuotient (num den : Nat) : Nat :=
  let q := num / den
  let twice := 2 * (num % den)
  if twice < den then q
  else if den < twice then q + 1
  else q + q % 2

/-- Multiplies by two to a power of either sign, as a fraction. -/
def scale (num den : Nat) (power : Int) : Nat × Nat :=
  if 0 ≤ power then (num * Nat.pow 2 power.toNat, den)
  else (num, den * Nat.pow 2 (-power).toNat)

/-- The exponent at which the significand of `num / den` has 53 bits, or the
smallest exponent when that is below it. -/
def exponentOf (num den : Nat) : Int :=
  let guess : Int := (num.log2 : Int) - (den.log2 : Int)
  let (a, b) := scale num den (-guess)
  max ((if b ≤ a then guess else guess - 1) - 52) minExponent

/-- The number nearest to `num / den`, for a positive `den`. -/
def ofRatio (negative : Bool) (num den : Nat) : Option Binary64 :=
  if num = 0 then some (zero negative)
  else
    let e := exponentOf num den
    let (a, b) := scale num den (-e)
    let m := roundQuotient a b
    let (m, e) := if m = Nat.pow 2 53 then (Nat.pow 2 52, e + 1) else (m, e)
    if maxExponent < e then none else some ⟨negative, m, e⟩

/-- The size of a number as a fraction. -/
def magnitude (x : Binary64) : Nat × Nat := scale x.significand 1 x.exponent

/-- The number nearest to a natural number. -/
def ofNat (n : Nat) : Option Binary64 := ofRatio false n 1

/-- The rounded product. -/
def mul (x y : Binary64) : Option Binary64 :=
  let (a, b) := x.magnitude
  let (c, d) := y.magnitude
  ofRatio (x.negative != y.negative) (a * c) (b * d)

/-- The rounded quotient by a number other than zero. -/
def div (x y : Binary64) : Option Binary64 :=
  let (a, b) := x.magnitude
  let (c, d) := y.magnitude
  ofRatio (x.negative != y.negative) (a * d) (b * c)

/-- The number nearest to ten to the power `n`, for `n` up to 308. -/
def powerOfTen (n : Nat) : Binary64 := (ofNat (Nat.pow 10 n)).getD (zero false)

/-- Divides `n` times by the number nearest to 1e308, stopping at zero. -/
def shrink (x : Binary64) : Nat → Binary64
  | 0 => x
  | n + 1 => if x.isZero then x else shrink ((x.div (powerOfTen 308)).getD (zero false)) n

/-- The number read for a decimal of the given digits and exponent of ten.  The
digits are rounded first and then scaled by the rounded power of ten, so that
the result may be a few places off the nearest number. -/
def ofDecimal (digits : Nat) (exponent : Int) : Option Binary64 :=
  match ofNat digits with
  | none => none
  | some x =>
    if 0 ≤ exponent then
      if exponent ≤ 308 then x.mul (powerOfTen exponent.toNat)
      else if x.isZero then some x else none
    else
      let places := (-exponent).toNat
      let steps := (places - 1) / 308
      let x := x.shrink steps
      if x.isZero then some x else x.div (powerOfTen (places - 308 * steps))

end Binary64
end LaneBus
