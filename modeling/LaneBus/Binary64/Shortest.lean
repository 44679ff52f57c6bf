import LaneBus.Binary64

/-! # The shortest decimal text of a number

Of the decimals that read back as a given number, the one with the fewest digits
is written, of two such the nearer, and of two equally near the one with an even
last digit.  It is written positionally when at most four zeros follow the point
before its first digit or at most sixteen digits precede the point, and with an
exponent otherwise.
-/
namespace LaneBus
namespace Binary64

/-- Compares `c · 10^s` with `w · 2^t`. -/
def compareScaled (c : Nat) (s : Int) (w : Nat) (t : Int) : Ordering :=
  compare (c * Nat.pow 10 s.toNat * Nat.pow 2 (-t).toNat)
    (w * Nat.pow 2 t.toNat * Nat.pow 10 (-s).toNat)

/-- Whether `c · 10^s` reads back as the positive number `x`: it lies between
the middles to both neighbours, which belong to `x` when its significand is
even. -/
def readsBack (x : Binary64) (c : Nat) (s : Int) : Bool :=
  let m := x.significand
  let low := if m = Nat.pow 2 52 ∧ minExponent < x.exponent then 4 * m - 1 else 4 * m - 2
  let fromLow := compareScaled c s low (x.exponent - 2)
  let fromHigh := compareScaled c s (4 * m + 2) (x.exponent - 2)
  (fromLow == .gt || (fromLow == .eq && m % 2 == 0)) &&
    (fromHigh == .lt || (fromHigh == .eq && m % 2 == 0))

/-- The power of ten of the first digit of a positive number. -/
def leadingPower (x : Binary64) : Int :=
  let scaled :=
    x.significand * Nat.pow 2 (x.exponent - minExponent).toNat * Nat.pow 10 400 / Nat.pow 2 1074
  ((Nat.toDigits 10 scaled).length : Int) - 401

/-- Of the two multiples of `10^s` around the positive number `x`, the one to
write, if any reads back. -/
def neighbour? (x : Binary64) (s : Int) : Option Nat :=
  let (a, b) := x.magnitude
  let below := a * Nat.pow 10 (-s).toNat / (b * Nat.pow 10 s.toNat)
  match x.readsBack below s, x.readsBack (below + 1) s with
  | false, false => none
  | true, false => some below
  | false, true => some (below + 1)
  | true, true =>
    match compareScaled (2 * below + 1) s (2 * x.significand) x.exponent with
    | .gt => some below
    | .lt => some (below + 1)
    | .eq => some (below + below % 2)

/-- The first of `n` ever finer grids with a decimal that reads back. -/
def shortestFrom (x : Binary64) (s : Int) : Nat → Nat × Int
  | 0 => (0, 0)
  | n + 1 =>
    match x.neighbour? s with
    | some c => (c, s)
    | none => shortestFrom x (s - 1) n

/-- Moves the zeros at the end of a decimal into its exponent. -/
def trimZeros (c : Nat) (s : Int) : Nat → Nat × Int
  | 0 => (c, s)
  | n + 1 => if c ≠ 0 ∧ c % 10 = 0 then trimZeros (c / 10) (s + 1) n else (c, s)

/-- The digits and the exponent of ten of the shortest decimal. -/
def shortest (x : Binary64) : Nat × Int :=
  if x.isZero then (0, 0)
  else
    let (c, s) := x.shortestFrom x.leadingPower 18
    trimZeros c s 18

/-- Writes a decimal of the given digits and exponent of ten. -/
def writeDecimal (digits : List Char) (s : Int) : List Char :=
  let n : Int := digits.length
  let point := n + s
  if 0 ≤ s ∧ point ≤ 16 then digits ++ List.replicate s.toNat '0' ++ ['.', '0']
  else if 0 < point ∧ point ≤ 16 then
    digits.take point.toNat ++ '.' :: digits.drop point.toNat
  else if -5 < point ∧ point ≤ 0 then
    '0' :: '.' :: List.replicate (-point).toNat '0' ++ digits
  else
    let power := point - 1
    let exponent := (if power < 0 then ['-'] else ['+']) ++ Nat.toDigits 10 power.natAbs
    match digits with
    | [d] => d :: 'e' :: exponent
    | d :: rest => d :: '.' :: rest ++ 'e' :: exponent
    | [] => []

/-- The text of a number. -/
def text (x : Binary64) : List Char :=
  let sign := if x.negative then ['-'] else []
  if x.isZero then sign ++ ['0', '.', '0']
  else
    let (c, s) := x.shortest
    sign ++ writeDecimal (Nat.toDigits 10 c) s

end Binary64
end LaneBus
