import Mathlib.Algebra.Order.Field.Basic
import Mathlib.Data.Int.Log
import Mathlib.Data.Rat.Floor
import Mathlib.Tactic.Linarith
import Mathlib.Tactic.Ring
import LaneBus.Binary64.Shortest

/-! # Rounding keeps order

The size of a number is the fraction it stands for, without its sign
(`Binary64.size`).  Rounding a fraction takes the exponent from its logarithm
(`exponentOf_eq`) and then the nearest significand, and both steps keep order.  So
a fraction at most as large as one that can be rounded can be rounded, to a number
at most as large (`ofRatio_mono`), and what is read for a decimal inherits that
from its digits and its exponent (`ofDecimal_mono`).  A decimal with a negative
exponent is never too large (`ofDecimal_of_neg`).
-/
namespace LaneBus
namespace Binary64

/-- The fraction that a number stands for, without its sign. -/
def size (x : Binary64) : ℚ := x.significand * (2 : ℚ) ^ x.exponent

/-- A number is within the bounds of the format. -/
structure Finite (x : Binary64) : Prop where
  significand_lt : x.significand < 2 ^ 53
  le_exponent : minExponent ≤ x.exponent
  exponent_le : x.exponent ≤ maxExponent

theorem zero_finite (negative : Bool) : (zero negative).Finite :=
  ⟨by simp [zero], by simp [zero], by simp [zero, minExponent, maxExponent]⟩

theorem Finite.neg {x : Binary64} (h : x.Finite) : x.neg.Finite :=
  ⟨h.significand_lt, h.le_exponent, h.exponent_le⟩

/-! ## Scaling -/

theorem two_zpow_pos (p : Int) : (0 : ℚ) < (2 : ℚ) ^ p := zpow_pos (by norm_num) p

theorem size_nonneg (x : Binary64) : 0 ≤ x.size :=
  mul_nonneg (Nat.cast_nonneg _) (two_zpow_pos _).le

theorem scale_pos {num den : Nat} (power : Int) (h : 0 < den) : 0 < (scale num den power).2 := by
  unfold scale
  split
  · exact h
  · exact Nat.mul_pos h (Nat.pow_pos Nat.two_pos)

theorem scale_div (num den : Nat) (power : Int) :
    ((scale num den power).1 : ℚ) / (scale num den power).2 = num / den * 2 ^ power := by
  unfold scale
  split
  · rename_i h
    obtain ⟨p, rfl⟩ := Int.eq_ofNat_of_zero_le h
    simp only [Int.toNat_natCast, Nat.pow_eq, Nat.cast_mul, Nat.cast_pow, Nat.cast_ofNat,
      zpow_natCast]
    ring
  · rename_i h
    obtain ⟨p, rfl⟩ : ∃ p : Nat, power = -(p : Int) := ⟨(-power).toNat, by omega⟩
    simp only [neg_neg, Int.toNat_natCast, Nat.pow_eq, Nat.cast_mul, Nat.cast_pow, Nat.cast_ofNat,
      zpow_neg, zpow_natCast]
    rw [← div_eq_mul_inv, div_div]

theorem magnitude_pos (x : Binary64) : 0 < x.magnitude.2 := scale_pos _ Nat.one_pos

theorem magnitude_div (x : Binary64) : (x.magnitude.1 : ℚ) / x.magnitude.2 = x.size := by
  unfold magnitude size
  rw [scale_div, Nat.cast_one, div_one]

/-! ## The nearest integer -/

/-- A quotient is rounded to at most `n` when it lies below the middle after `n`,
or on it and `n` is even. -/
theorem roundQuotient_le_iff {num den n : Nat} (h : 0 < den) :
    roundQuotient num den ≤ n ↔
      2 * num < (2 * n + 1) * den ∨ (2 * num = (2 * n + 1) * den ∧ n % 2 = 0) := by
  have hsplit : den * (num / den) + num % den = num := Nat.div_add_mod num den
  have hmod : num % den < den := Nat.mod_lt _ h
  unfold roundQuotient
  generalize num / den = q at *
  generalize num % den = r at *
  have hexpand : (2 * n + 1) * den = 2 * (den * n) + den := by ring
  rw [hexpand]
  -- the remainder matters only when the floor is `n` itself
  rcases Nat.lt_trichotomy q n with hlt | rfl | hlt
  · have hstep : den * (q + 1) ≤ den * n := Nat.mul_le_mul_left den hlt
    rw [Nat.mul_add, Nat.mul_one] at hstep
    constructor
    · intro _
      left
      omega
    · intro _
      dsimp only
      split_ifs <;> omega
  · dsimp only
    split_ifs <;> omega
  · have hstep : den * (n + 1) ≤ den * q := Nat.mul_le_mul_left den hlt
    rw [Nat.mul_add, Nat.mul_one] at hstep
    constructor
    · intro hle
      dsimp only at hle
      split_ifs at hle <;> omega
    · intro hle
      omega

/-- Rounding to the nearest integer keeps order. -/
theorem roundQuotient_mono {a b c d : Nat} (hb : 0 < b) (hd : 0 < d) (h : (a : ℚ) / b ≤ c / d) :
    roundQuotient a b ≤ roundQuotient c d := by
  have hcross : a * d ≤ c * b := by
    rw [div_le_div_iff₀ (by exact_mod_cast hb) (by exact_mod_cast hd)] at h
    exact_mod_cast h
  have hself : 2 * c < (2 * roundQuotient c d + 1) * d ∨
      (2 * c = (2 * roundQuotient c d + 1) * d ∧ roundQuotient c d % 2 = 0) :=
    (roundQuotient_le_iff hd).1 le_rfl
  generalize roundQuotient c d = n at hself
  rw [roundQuotient_le_iff hb]
  have hscaled : 2 * a * d ≤ 2 * c * b := by
    calc 2 * a * d = 2 * (a * d) := by ring
      _ ≤ 2 * (c * b) := Nat.mul_le_mul_left 2 hcross
      _ = 2 * c * b := by ring
  rcases hself with hlt | ⟨heq, heven⟩
  · left
    refine Nat.lt_of_mul_lt_mul_right (a := d) (lt_of_le_of_lt hscaled ?_)
    calc 2 * c * b < (2 * n + 1) * d * b := Nat.mul_lt_mul_of_pos_right hlt hb
      _ = (2 * n + 1) * b * d := by ring
  · have hle : 2 * a ≤ (2 * n + 1) * b := by
      refine Nat.le_of_mul_le_mul_right (c := d) (le_trans hscaled ?_) hd
      rw [heq]
      exact le_of_eq (by ring)
    rcases Nat.lt_or_eq_of_le hle with hlt | heq'
    · exact .inl hlt
    · exact .inr ⟨heq', heven⟩

theorem roundQuotient_one (n : Nat) : roundQuotient n 1 = n := by
  simp [roundQuotient, Nat.mod_one]

theorem roundQuotient_le {a b n : Nat} (hb : 0 < b) (h : (a : ℚ) / b ≤ n) :
    roundQuotient a b ≤ n := by
  have hmono := roundQuotient_mono (c := n) (d := 1) hb Nat.one_pos (by simpa using h)
  rwa [roundQuotient_one] at hmono

theorem le_roundQuotient {a b n : Nat} (hb : 0 < b) (h : (n : ℚ) ≤ a / b) :
    n ≤ roundQuotient a b := by
  have hmono := roundQuotient_mono (a := n) (b := 1) Nat.one_pos hb (by simpa using h)
  rwa [roundQuotient_one] at hmono

/-! ## The exponent of a fraction -/

theorem log2_bounds {n : Nat} (h : 0 < n) :
    (2 : ℚ) ^ (n.log2 : Int) ≤ n ∧ (n : ℚ) < 2 ^ ((n.log2 : Int) + 1) := by
  constructor
  · rw [zpow_natCast]
    exact_mod_cast Nat.log2_self_le (Nat.ne_of_gt h)
  · have hlt : n < 2 ^ (n.log2 + 1) := Nat.lt_log2_self
    calc (n : ℚ) < ((2 ^ (n.log2 + 1) : Nat) : ℚ) := by exact_mod_cast hlt
      _ = 2 ^ ((n.log2 : Int) + 1) := by
        rw [Nat.cast_pow, Nat.cast_ofNat, ← zpow_natCast, Nat.cast_add, Nat.cast_one]

/-- The logarithm of a fraction is determined by the powers of two around it. -/
theorem log_eq {q : ℚ} {g : Int} (h : (2 : ℚ) ^ g ≤ q) (h' : q < 2 ^ (g + 1)) :
    Int.log 2 q = g := by
  have hpos : 0 < q := lt_of_lt_of_le (two_zpow_pos g) h
  have hle : g ≤ Int.log 2 q := (Int.zpow_le_iff_le_log Nat.one_lt_two hpos).1 (by exact_mod_cast h)
  have hlt : Int.log 2 q < g + 1 :=
    (Int.lt_zpow_iff_log_lt Nat.one_lt_two hpos).1 (by exact_mod_cast h')
  omega

/-- The exponent of a fraction is its logarithm less 52, or the smallest one. -/
theorem exponentOf_eq {num den : Nat} (hnum : 0 < num) (hden : 0 < den) :
    exponentOf num den = max (Int.log 2 ((num : ℚ) / den) - 52) minExponent := by
  obtain ⟨hlow, hhigh⟩ := log2_bounds hnum
  obtain ⟨hlow', hhigh'⟩ := log2_bounds hden
  have hdenq : (0 : ℚ) < den := by exact_mod_cast hden
  set g : Int := (num.log2 : Int) - (den.log2 : Int) with hg
  -- the fraction lies strictly between the powers of two at `g - 1` and `g + 1`
  have habove : (2 : ℚ) ^ (g - 1) < num / den := by
    rw [lt_div_iff₀ hdenq]
    calc (2 : ℚ) ^ (g - 1) * den < 2 ^ (g - 1) * 2 ^ ((den.log2 : Int) + 1) :=
          mul_lt_mul_of_pos_left hhigh' (two_zpow_pos _)
      _ = 2 ^ (num.log2 : Int) := by
          rw [← zpow_add₀ two_ne_zero]
          congr 1
          omega
      _ ≤ num := hlow
  have hbelow : (num : ℚ) / den < 2 ^ (g + 1) := by
    rw [div_lt_iff₀ hdenq]
    calc (num : ℚ) < 2 ^ ((num.log2 : Int) + 1) := hhigh
      _ = 2 ^ (g + 1) * 2 ^ (den.log2 : Int) := by
          rw [← zpow_add₀ two_ne_zero]
          congr 1
          omega
      _ ≤ 2 ^ (g + 1) * den := mul_le_mul_of_nonneg_left hlow' (two_zpow_pos _).le
  have hscaled := scale_div num den (-g)
  have hscaledPos : (0 : ℚ) < (scale num den (-g)).2 := by exact_mod_cast scale_pos (-g) hden
  have hcompare : (scale num den (-g)).2 ≤ (scale num den (-g)).1 ↔ (2 : ℚ) ^ g ≤ num / den := by
    rw [← @Nat.cast_le ℚ, ← one_le_div hscaledPos, hscaled, zpow_neg, ← div_eq_mul_inv,
      one_le_div (two_zpow_pos g)]
  -- so the comparison tells which of the two is the logarithm
  have hchoice : (if (scale num den (-g)).2 ≤ (scale num den (-g)).1 then g else g - 1) =
      Int.log 2 ((num : ℚ) / den) := by
    split
    · rename_i h
      exact (log_eq (hcompare.1 h) hbelow).symm
    · rename_i h
      rw [hcompare, not_le] at h
      exact (log_eq habove.le (by simpa using h)).symm
  unfold exponentOf
  simp only [← hg]
  rw [← hchoice]

theorem exponentOf_mono {a b c d : Nat} (ha : 0 < a) (hb : 0 < b) (hc : 0 < c) (hd : 0 < d)
    (h : (a : ℚ) / b ≤ c / d) : exponentOf a b ≤ exponentOf c d := by
  have hpos : (0 : ℚ) < a / b := div_pos (by exact_mod_cast ha) (by exact_mod_cast hb)
  rw [exponentOf_eq ha hb, exponentOf_eq hc hd]
  have hlog := Int.log_mono_right (b := 2) hpos h
  omega

/-! ## Rounding a fraction -/

/-- The significand nearest to a fraction at its exponent; it may be the power of
two right above the significands of 53 bits. -/
def significandOf (num den : Nat) : Nat :=
  roundQuotient (scale num den (-exponentOf num den)).1 (scale num den (-exponentOf num den)).2

theorem ofRatio_eq {num : Nat} (negative : Bool) (den : Nat) (h : num ≠ 0) :
    ofRatio negative num den =
      if significandOf num den = 2 ^ 53 then
        if maxExponent < exponentOf num den + 1 then none
        else some ⟨negative, 2 ^ 52, exponentOf num den + 1⟩
      else if maxExponent < exponentOf num den then none
      else some ⟨negative, significandOf num den, exponentOf num den⟩ := by
  rw [ofRatio, if_neg h]
  let p : Nat × Int :=
    if significandOf num den = 2 ^ 53 then (2 ^ 52, exponentOf num den + 1)
    else (significandOf num den, exponentOf num den)
  change (if maxExponent < p.2 then none else some (⟨negative, p.1, p.2⟩ : Binary64)) = _
  by_cases hm : significandOf num den = 2 ^ 53
  · have hp : p = (2 ^ 52, exponentOf num den + 1) := if_pos hm
    rw [hp, if_pos hm]
  · have hp : p = (significandOf num den, exponentOf num den) := if_neg hm
    rw [hp, if_neg hm]

theorem significandOf_le {num den : Nat} (hnum : 0 < num) (hden : 0 < den) :
    significandOf num den ≤ 2 ^ 53 := by
  have hle : Int.log 2 ((num : ℚ) / den) + 1 ≤ exponentOf num den + 53 := by
    rw [exponentOf_eq hnum hden]
    omega
  apply roundQuotient_le (scale_pos _ hden)
  rw [scale_div, zpow_neg, ← div_eq_mul_inv, div_le_iff₀ (two_zpow_pos _)]
  calc (num : ℚ) / den ≤ 2 ^ (Int.log 2 ((num : ℚ) / den) + 1) := by
        exact_mod_cast (Int.lt_zpow_succ_log_self Nat.one_lt_two ((num : ℚ) / den)).le
    _ ≤ 2 ^ (exponentOf num den + 53) := zpow_le_zpow_right₀ (by norm_num) hle
    _ = ((2 ^ 53 : Nat) : ℚ) * 2 ^ exponentOf num den := by
        rw [zpow_add₀ two_ne_zero, mul_comm]
        norm_num

theorem le_significandOf {num den : Nat} (hnum : 0 < num) (hden : 0 < den)
    (h : minExponent < exponentOf num den) : 2 ^ 52 ≤ significandOf num den := by
  have hpos : (0 : ℚ) < num / den := div_pos (by exact_mod_cast hnum) (by exact_mod_cast hden)
  have heq : exponentOf num den + 52 = Int.log 2 ((num : ℚ) / den) := by
    rw [exponentOf_eq hnum hden] at h ⊢
    omega
  apply le_roundQuotient (scale_pos _ hden)
  rw [scale_div, zpow_neg, ← div_eq_mul_inv, le_div_iff₀ (two_zpow_pos _)]
  calc ((2 ^ 52 : Nat) : ℚ) * 2 ^ exponentOf num den = 2 ^ (exponentOf num den + 52) := by
        rw [zpow_add₀ two_ne_zero, mul_comm]
        norm_num
    _ = 2 ^ Int.log 2 ((num : ℚ) / den) := by rw [heq]
    _ ≤ num / den := by exact_mod_cast Int.zpow_log_le_self Nat.one_lt_two hpos

/-- A number to which a fraction is rounded is within the bounds of the format. -/
theorem ofRatio_finite {negative : Bool} {num den : Nat} {x : Binary64} (hden : 0 < den)
    (h : ofRatio negative num den = some x) : x.Finite := by
  rcases Nat.eq_zero_or_pos num with rfl | hnum
  · rw [ofRatio, if_pos rfl] at h
    cases h
    exact zero_finite negative
  · have hlow : minExponent ≤ exponentOf num den := by
      rw [exponentOf_eq hnum hden]
      exact le_max_right _ _
    have hle := significandOf_le hnum hden
    rw [ofRatio_eq negative den (Nat.ne_of_gt hnum)] at h
    split_ifs at h with hm he he
    · cases h
      refine ⟨by norm_num, ?_, ?_⟩
      · show minExponent ≤ exponentOf num den + 1
        omega
      · show exponentOf num den + 1 ≤ maxExponent
        omega
    · cases h
      refine ⟨?_, hlow, ?_⟩
      · show significandOf num den < 2 ^ 53
        omega
      · show exponentOf num den ≤ maxExponent
        omega

/-- The size of the number to which a fraction is rounded. -/
def rounded (num den : Nat) : ℚ := significandOf num den * (2 : ℚ) ^ exponentOf num den

theorem ofRatio_size {negative : Bool} {num den : Nat} {x : Binary64} (hnum : 0 < num)
    (h : ofRatio negative num den = some x) : x.size = rounded num den := by
  rw [ofRatio_eq negative den (Nat.ne_of_gt hnum)] at h
  unfold rounded size
  split_ifs at h with hm he he
  · cases h
    rw [hm, zpow_add₀ two_ne_zero, zpow_one]
    norm_num
    ring
  · cases h
    rfl

/-- Rounding keeps order. -/
theorem rounded_mono {a b c d : Nat} (ha : 0 < a) (hb : 0 < b) (hc : 0 < c) (hd : 0 < d)
    (h : (a : ℚ) / b ≤ c / d) : rounded a b ≤ rounded c d := by
  unfold rounded
  rcases lt_or_eq_of_le (exponentOf_mono ha hb hc hd h) with hlt | heq
  · have hlow : minExponent < exponentOf c d := by
      rw [exponentOf_eq ha hb] at hlt
      omega
    -- the power of two at the larger exponent lies between the two
    calc (significandOf a b : ℚ) * 2 ^ exponentOf a b
          ≤ ((2 ^ 53 : Nat) : ℚ) * 2 ^ exponentOf a b :=
          mul_le_mul_of_nonneg_right (by exact_mod_cast significandOf_le ha hb) (two_zpow_pos _).le
      _ = ((2 ^ 52 : Nat) : ℚ) * 2 ^ (exponentOf a b + 1) := by
          rw [zpow_add₀ two_ne_zero, zpow_one]
          norm_num
          ring
      _ ≤ ((2 ^ 52 : Nat) : ℚ) * 2 ^ exponentOf c d :=
          mul_le_mul_of_nonneg_left (zpow_le_zpow_right₀ (by norm_num) (by omega))
            (Nat.cast_nonneg _)
      _ ≤ (significandOf c d : ℚ) * 2 ^ exponentOf c d :=
          mul_le_mul_of_nonneg_right (by exact_mod_cast le_significandOf hc hd hlow)
            (two_zpow_pos _).le
  · rw [heq]
    refine mul_le_mul_of_nonneg_right ?_ (two_zpow_pos _).le
    have hmono : significandOf a b ≤ significandOf c d := by
      unfold significandOf
      refine roundQuotient_mono (scale_pos _ hb) (scale_pos _ hd) ?_
      rw [scale_div, scale_div, heq]
      exact mul_le_mul_of_nonneg_right h (two_zpow_pos _).le
    exact_mod_cast hmono

/-- **A fraction at most as large as one that can be rounded can be rounded**, to a
number at most as large. -/
theorem ofRatio_mono {a b c d : Nat} {y : Binary64} (negative : Bool) {negative' : Bool}
    (hb : 0 < b) (hd : 0 < d) (h : (a : ℚ) / b ≤ c / d) (hy : ofRatio negative' c d = some y) :
    ∃ x, ofRatio negative a b = some x ∧ x.size ≤ y.size := by
  rcases Nat.eq_zero_or_pos a with rfl | ha
  · refine ⟨zero negative, by rw [ofRatio, if_pos rfl], ?_⟩
    have hzero : (zero negative).size = 0 := by simp [zero, size]
    rw [hzero]
    exact y.size_nonneg
  have hapos : (0 : ℚ) < a / b := div_pos (by exact_mod_cast ha) (by exact_mod_cast hb)
  have hc : 0 < c := by
    rcases Nat.eq_zero_or_pos c with rfl | hc
    · rw [Nat.cast_zero, zero_div] at h
      exact absurd hapos (not_lt.2 h)
    · exact hc
  have hexp := exponentOf_mono ha hb hc hd h
  have hsize := rounded_mono ha hb hc hd h
  -- at the largest exponent the significand may not reach the next power of two
  have hsome : (ofRatio negative a b).isSome = true := by
    have hlea := significandOf_le ha hb
    have hlec := significandOf_le hc hd
    rw [ofRatio_eq negative b (Nat.ne_of_gt ha)]
    rw [ofRatio_eq negative' d (Nat.ne_of_gt hc)] at hy
    split_ifs at hy with hm he he
    · split_ifs <;> first | rfl | omega
    · rcases lt_or_eq_of_le hexp with hlt | heq
      · split_ifs <;> first | rfl | omega
      · have hmono : significandOf a b ≤ significandOf c d := by
          unfold rounded at hsize
          rw [heq] at hsize
          exact_mod_cast le_of_mul_le_mul_right hsize (two_zpow_pos _)
        split_ifs <;> first | rfl | omega
  obtain ⟨x, hx⟩ := Option.isSome_iff_exists.1 hsome
  refine ⟨x, hx, ?_⟩
  rw [ofRatio_size ha hx, ofRatio_size hc hy]
  exact hsize

/-! ## Arithmetic -/

theorem ofNat_mono {m n : Nat} {y : Binary64} (h : m ≤ n) (hy : ofNat n = some y) :
    ∃ x, ofNat m = some x ∧ x.size ≤ y.size := by
  apply ofRatio_mono false Nat.one_pos Nat.one_pos _ hy
  rw [Nat.cast_one, div_one, div_one]
  exact_mod_cast h

theorem product_div (x y : Binary64) :
    ((x.magnitude.1 * y.magnitude.1 : Nat) : ℚ) / (x.magnitude.2 * y.magnitude.2 : Nat) =
      x.size * y.size := by
  rw [← magnitude_div x, ← magnitude_div y, Nat.cast_mul, Nat.cast_mul, div_mul_div_comm]

theorem quotient_div (x y : Binary64) :
    ((x.magnitude.1 * y.magnitude.2 : Nat) : ℚ) / (x.magnitude.2 * y.magnitude.1 : Nat) =
      x.size / y.size := by
  rw [← magnitude_div x, ← magnitude_div y, Nat.cast_mul, Nat.cast_mul, div_div_div_eq]

theorem mul_mono {x y x' y' z' : Binary64} (hx : x.size ≤ x'.size) (hy : y.size ≤ y'.size)
    (h : x'.mul y' = some z') : ∃ z, x.mul y = some z ∧ z.size ≤ z'.size := by
  have hden := Nat.mul_pos x.magnitude_pos y.magnitude_pos
  have hden' := Nat.mul_pos x'.magnitude_pos y'.magnitude_pos
  have hle : ((x.magnitude.1 * y.magnitude.1 : Nat) : ℚ) / (x.magnitude.2 * y.magnitude.2 : Nat) ≤
      ((x'.magnitude.1 * y'.magnitude.1 : Nat) : ℚ) / (x'.magnitude.2 * y'.magnitude.2 : Nat) := by
    rw [product_div, product_div]
    exact mul_le_mul hx hy y.size_nonneg x'.size_nonneg
  exact ofRatio_mono _ hden hden' hle h

theorem mul_finite {x y z : Binary64} (h : x.mul y = some z) : z.Finite :=
  ofRatio_finite (Nat.mul_pos x.magnitude_pos y.magnitude_pos) h

/-- The largest number of 64 bits is rounded to the power of two after it. -/
theorem ofRatio_bound : ofRatio false (2 ^ 64) 1 = some ⟨false, 2 ^ 52, 12⟩ := by decide +kernel

/-- The power of two right above the integers of 64 bits. -/
def top : Binary64 := ⟨false, 2 ^ 52, 12⟩

theorem top_size : top.size = 2 ^ 64 := by
  unfold top size
  norm_num

theorem magnitude_fst_pos {x : Binary64} (h : 1 ≤ x.size) : 0 < x.magnitude.1 := by
  rcases Nat.eq_zero_or_pos x.magnitude.1 with hzero | hpos
  · rw [← magnitude_div, hzero, Nat.cast_zero, zero_div] at h
    exact absurd h (by norm_num)
  · exact hpos

/-- Dividing a number of at most 64 bits by one of size at least one. -/
theorem div_le_top {x y : Binary64} (hx : x.size ≤ top.size) (hy : 1 ≤ y.size) :
    ∃ z, x.div y = some z ∧ z.size ≤ top.size ∧ z.Finite := by
  have hden := Nat.mul_pos x.magnitude_pos (magnitude_fst_pos hy)
  have hle : ((x.magnitude.1 * y.magnitude.2 : Nat) : ℚ) / (x.magnitude.2 * y.magnitude.1 : Nat) ≤
      ((2 ^ 64 : Nat) : ℚ) / (1 : Nat) := by
    rw [quotient_div]
    calc x.size / y.size ≤ x.size := div_le_self x.size_nonneg hy
      _ ≤ top.size := hx
      _ = ((2 ^ 64 : Nat) : ℚ) / (1 : Nat) := by rw [top_size]; norm_num
  obtain ⟨z, hz, hsize⟩ := ofRatio_mono (x.negative != y.negative) hden Nat.one_pos hle ofRatio_bound
  exact ⟨z, hz, hsize, ofRatio_finite hden hz⟩

/-! ## Powers of ten -/

theorem ofNat_powerOfTen_of_le {m n : Nat} (h : m ≤ n) (hn : (powerOfTen n).isZero = false) :
    ofNat (10 ^ m) = some (powerOfTen m) := by
  unfold powerOfTen at hn ⊢
  rw [Nat.pow_eq] at hn ⊢
  cases hcase : ofNat (10 ^ n) with
  | none =>
    rw [hcase] at hn
    cases hn
  | some y =>
    obtain ⟨x, hx, -⟩ := ofNat_mono (Nat.pow_le_pow_right (by norm_num) h) hcase
    rw [hx, Option.getD_some]

theorem ofNat_powerOfTen {n : Nat} (h : n ≤ 308) : ofNat (10 ^ n) = some (powerOfTen n) :=
  ofNat_powerOfTen_of_le h (by decide +kernel)

theorem powerOfTen_mono {m n : Nat} (h : m ≤ n) (hn : n ≤ 308) :
    (powerOfTen m).size ≤ (powerOfTen n).size := by
  obtain ⟨x, hx, hle⟩ :=
    ofNat_mono (Nat.pow_le_pow_right (n := 10) (by norm_num) h) (ofNat_powerOfTen hn)
  rw [ofNat_powerOfTen (Nat.le_trans h hn)] at hx
  cases hx
  exact hle

theorem one_le_powerOfTen {n : Nat} (h : n ≤ 308) : 1 ≤ (powerOfTen n).size := by
  have hone : (powerOfTen 0).size = 1 := by
    have heq : powerOfTen 0 = ⟨false, 2 ^ 52, -52⟩ := by decide +kernel
    rw [heq]
    unfold size
    norm_num
  rw [← hone]
  exact powerOfTen_mono (Nat.zero_le n) h

theorem shrink_le_top {x : Binary64} (h : x.size ≤ top.size) (hf : x.Finite) (n : Nat) :
    (x.shrink n).size ≤ top.size ∧ (x.shrink n).Finite := by
  induction n generalizing x with
  | zero => exact ⟨h, hf⟩
  | succ n ih =>
    rw [shrink]
    split
    · exact ⟨h, hf⟩
    · obtain ⟨z, hz, hle, hfinite⟩ := div_le_top h (one_le_powerOfTen le_rfl)
      rw [hz, Option.getD_some]
      exact ih hle hfinite

/-! ## Decimals -/

theorem ofNat_finite {n : Nat} {x : Binary64} (h : ofNat n = some x) : x.Finite :=
  ofRatio_finite Nat.one_pos h

theorem ofNat_le_top {n : Nat} (h : n ≤ 2 ^ 64) : ∃ x, ofNat n = some x ∧ x.size ≤ top.size :=
  ofNat_mono h ofRatio_bound

/-- A number is read for every decimal of at most 64 bits with a negative exponent. -/
theorem ofDecimal_of_neg {digits : Nat} {exponent : Int} (hdigits : digits ≤ 2 ^ 64)
    (hexponent : exponent < 0) : ∃ x, ofDecimal digits exponent = some x := by
  obtain ⟨x, hx, hle⟩ := ofNat_le_top hdigits
  unfold ofDecimal
  rw [hx]
  simp only
  rw [if_neg (by omega)]
  split
  · exact ⟨_, rfl⟩
  · obtain ⟨hshrunk, -⟩ :=
      shrink_le_top hle (ofNat_finite hx) (((-exponent).toNat - 1) / 308)
    obtain ⟨z, hz, -⟩ := div_le_top hshrunk
      (one_le_powerOfTen (n := (-exponent).toNat - 308 * (((-exponent).toNat - 1) / 308)) (by omega))
    exact ⟨z, hz⟩

/-- A decimal at most as large in digits and exponent as one for which a number is
read is one itself. -/
theorem ofDecimal_mono {c c' s s' : Nat} {y : Binary64} (hc : c ≤ c') (hs : s ≤ s')
    (hs' : s' ≤ 308) (hy : ofDecimal c' s' = some y) : ∃ x, ofDecimal c s = some x := by
  unfold ofDecimal at hy ⊢
  cases hn' : ofNat c' with
  | none =>
    rw [hn'] at hy
    cases hy
  | some n' =>
    obtain ⟨n, hn, hle⟩ := ofNat_mono hc hn'
    rw [hn'] at hy
    rw [hn]
    simp only at hy ⊢
    rw [if_pos (Int.natCast_nonneg s'), if_pos (by omega), Int.toNat_natCast] at hy
    rw [if_pos (Int.natCast_nonneg s), if_pos (by omega), Int.toNat_natCast]
    obtain ⟨z, hz, -⟩ := mul_mono hle (powerOfTen_mono hs hs') hy
    exact ⟨z, hz⟩

/-- A number read for a decimal of at most 64 bits is within the bounds of the
format. -/
theorem ofDecimal_finite {digits : Nat} {exponent : Int} {x : Binary64} (hdigits : digits ≤ 2 ^ 64)
    (h : ofDecimal digits exponent = some x) : x.Finite := by
  obtain ⟨n, hn, hle⟩ := ofNat_le_top hdigits
  unfold ofDecimal at h
  rw [hn] at h
  simp only at h
  split_ifs at h with hsign hsmall hzero hzero
  · exact mul_finite h
  · cases h
    exact ofNat_finite hn
  · cases h
    exact (shrink_le_top hle (ofNat_finite hn) _).2
  · obtain ⟨hshrunk, -⟩ := shrink_le_top hle (ofNat_finite hn) (((-exponent).toNat - 1) / 308)
    obtain ⟨z, hz, -, hfinite⟩ := div_le_top hshrunk
      (one_le_powerOfTen (n := (-exponent).toNat - 308 * (((-exponent).toNat - 1) / 308)) (by omega))
    rw [hz] at h
    cases h
    exact hfinite

end Binary64
end LaneBus
