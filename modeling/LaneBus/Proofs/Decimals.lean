import Mathlib.Data.Nat.Cast.Order.Field
import Mathlib.Tactic.NormNum
import LaneBus.Proofs.Rounding

/-! # The shortest decimal can be read

The shortest decimal of a number lies below the middle between the largest number
and the power of two after it (`Shown.below_ceiling`), and its digits fit into 64
bits.  With an exponent of zero or more it is therefore at most as large as one of
a few decimals that are read without leaving the format (`shortest_read`).
-/
namespace LaneBus
namespace Binary64

/-! ## Comparing decimals with multiples of powers of two -/

theorem ten_zpow_pos (s : Int) : (0 : ℚ) < (10 : ℚ) ^ s := zpow_pos (by norm_num) s

/-- A power of either sign is a quotient of two natural ones. -/
theorem zpow_mul_toNat {b : ℚ} (hb : b ≠ 0) (s : Int) : b ^ s * b ^ (-s).toNat = b ^ s.toNat := by
  rw [← zpow_natCast, ← zpow_natCast, ← zpow_add₀ hb]
  congr 1
  omega

/-- The two sides of a comparison are the decimal and the multiple, scaled alike. -/
theorem compareScaled_sides (c : Nat) (s : Int) (w : Nat) (t : Int) :
    ∃ k : ℚ, 0 < k ∧
      ((c * Nat.pow 10 s.toNat * Nat.pow 2 (-t).toNat : Nat) : ℚ) = c * 10 ^ s * k ∧
      ((w * Nat.pow 2 t.toNat * Nat.pow 10 (-s).toNat : Nat) : ℚ) = w * 2 ^ t * k := by
  refine ⟨10 ^ (-s).toNat * 2 ^ (-t).toNat, by positivity, ?_, ?_⟩
  · simp only [Nat.pow_eq, Nat.cast_mul, Nat.cast_pow, Nat.cast_ofNat]
    rw [← zpow_mul_toNat (by norm_num) s]
    ring
  · simp only [Nat.pow_eq, Nat.cast_mul, Nat.cast_pow, Nat.cast_ofNat]
    rw [← zpow_mul_toNat (by norm_num) t]
    ring

theorem le_of_compareScaled_ne_gt {c : Nat} {s : Int} {w : Nat} {t : Int}
    (h : compareScaled c s w t ≠ .gt) : (c : ℚ) * 10 ^ s ≤ w * 2 ^ t := by
  obtain ⟨k, hk, hleft, hright⟩ := compareScaled_sides c s w t
  have hle := Nat.compare_ne_gt.1 h
  rw [← @Nat.cast_le ℚ, hleft, hright] at hle
  exact le_of_mul_le_mul_right hle hk

theorem ge_of_compareScaled_ne_lt {c : Nat} {s : Int} {w : Nat} {t : Int}
    (h : compareScaled c s w t ≠ .lt) : (w : ℚ) * 2 ^ t ≤ c * 10 ^ s := by
  obtain ⟨k, hk, hleft, hright⟩ := compareScaled_sides c s w t
  have hle := Nat.compare_ne_lt.1 h
  rw [← @Nat.cast_le ℚ, hleft, hright] at hle
  exact le_of_mul_le_mul_right hle hk

/-! ## The decimals that are tried -/

/-- A decimal is not zero, lies below the middle between a number and the next one,
and has digits of less than 64 bits and no exponent far below those of the
format. -/
structure Shown (x : Binary64) (c : Nat) (s : Int) : Prop where
  digits_pos : 0 < c
  digits_le : c ≤ 10 ^ 18
  exponent_ge : -417 ≤ s
  high : (c : ℚ) * 10 ^ s ≤ ((4 * x.significand + 2 : Nat) : ℚ) * 2 ^ (x.exponent - 2)

theorem readsBack_bounds {x : Binary64} {c : Nat} {s : Int} (h : x.readsBack c s = true) :
    ((4 * x.significand - 2 : Nat) : ℚ) * 2 ^ (x.exponent - 2) ≤ c * 10 ^ s ∧
      (c : ℚ) * 10 ^ s ≤ ((4 * x.significand + 2 : Nat) : ℚ) * 2 ^ (x.exponent - 2) := by
  unfold readsBack at h
  simp only [Bool.and_eq_true, Bool.or_eq_true, beq_iff_eq] at h
  obtain ⟨hlow, hhigh⟩ := h
  constructor
  · have hle : 4 * x.significand - 2 ≤ if x.significand = Nat.pow 2 52 ∧
        minExponent < x.exponent then 4 * x.significand - 1 else 4 * x.significand - 2 := by
      split <;> omega
    generalize (if x.significand = Nat.pow 2 52 ∧ minExponent < x.exponent then
      4 * x.significand - 1 else 4 * x.significand - 2) = low at hlow hle
    refine le_trans (b := (low : ℚ) * 2 ^ (x.exponent - 2)) ?_ (ge_of_compareScaled_ne_lt ?_)
    · exact mul_le_mul_of_nonneg_right (by exact_mod_cast hle) (two_zpow_pos _).le
    · rcases hlow with hgt | ⟨heq, -⟩
      · rw [hgt]
        decide
      · rw [heq]
        decide
  · apply le_of_compareScaled_ne_gt
    rcases hhigh with hlt | ⟨heq, -⟩
    · rw [hlt]
      decide
    · rw [heq]
      decide

/-- A decimal that is no smaller than the lower middle of a number other than zero is
not zero. -/
theorem digits_pos_of_low {x : Binary64} {c : Nat} {s : Int} (hx : x.isZero = false)
    (h : ((4 * x.significand - 2 : Nat) : ℚ) * 2 ^ (x.exponent - 2) ≤ c * 10 ^ s) : 0 < c := by
  have hm : x.significand ≠ 0 := by
    unfold isZero at hx
    exact beq_eq_false_iff_ne.1 hx
  rcases Nat.eq_zero_or_pos c with rfl | hpos
  · rw [Nat.cast_zero, zero_mul] at h
    have hlt : (0 : ℚ) < ((4 * x.significand - 2 : Nat) : ℚ) * 2 ^ (x.exponent - 2) := by
      have hnat : 0 < 4 * x.significand - 2 := by omega
      exact mul_pos (by exact_mod_cast hnat) (two_zpow_pos _)
    exact absurd h (not_le.2 hlt)
  · exact hpos

/-- The multiple of a power of ten below a number. -/
def below (x : Binary64) (s : Int) : Nat :=
  x.magnitude.1 * Nat.pow 10 (-s).toNat / (x.magnitude.2 * Nat.pow 10 s.toNat)

theorem below_le (x : Binary64) (s : Int) : (x.below s : ℚ) * 10 ^ s ≤ x.size := by
  have hden : 0 < x.magnitude.2 * Nat.pow 10 s.toNat :=
    Nat.mul_pos x.magnitude_pos (Nat.pow_pos (by norm_num))
  have hle : (x.below s : ℚ) ≤ _ / _ :=
    Nat.cast_div_le (m := x.magnitude.1 * Nat.pow 10 (-s).toNat)
      (n := x.magnitude.2 * Nat.pow 10 s.toNat)
  have hscale : ((x.magnitude.1 * Nat.pow 10 (-s).toNat : Nat) : ℚ) /
      (x.magnitude.2 * Nat.pow 10 s.toNat : Nat) * 10 ^ s = x.size := by
    have hpos : (x.magnitude.2 : ℚ) ≠ 0 := by exact_mod_cast Nat.ne_of_gt x.magnitude_pos
    rw [← magnitude_div, div_mul_eq_mul_div, div_eq_div_iff (by exact_mod_cast Nat.ne_of_gt hden) hpos]
    simp only [Nat.pow_eq, Nat.cast_mul, Nat.cast_pow, Nat.cast_ofNat]
    rw [← zpow_mul_toNat (b := (10 : ℚ)) (by norm_num) s]
    ring
  calc (x.below s : ℚ) * 10 ^ s ≤ _ * 10 ^ s := mul_le_mul_of_nonneg_right hle (ten_zpow_pos s).le
    _ = x.size := hscale

theorem neighbour?_spec {x : Binary64} {s : Int} {c : Nat} (h : x.neighbour? s = some c) :
    x.readsBack c s = true ∧ c ≤ x.below s + 1 := by
  have hbelow : x.magnitude.1 * Nat.pow 10 (-s).toNat / (x.magnitude.2 * Nat.pow 10 s.toNat) =
      x.below s := rfl
  unfold neighbour? at h
  simp only [hbelow] at h
  generalize x.below s = b at h ⊢
  cases hlower : x.readsBack b s with
  | false =>
    cases hupper : x.readsBack (b + 1) s with
    | false => simp only [hlower, hupper] at h; cases h
    | true => simp only [hlower, hupper] at h; cases h; exact ⟨hupper, le_rfl⟩
  | true =>
    cases hupper : x.readsBack (b + 1) s with
    | false => simp only [hlower, hupper] at h; cases h; exact ⟨hlower, by omega⟩
    | true =>
      simp only [hlower, hupper] at h
      split at h
      · cases h
        exact ⟨hlower, by omega⟩
      · cases h
        exact ⟨hupper, le_rfl⟩
      · cases h
        rcases Nat.mod_two_eq_zero_or_one b with hb | hb
        · rw [hb]
          exact ⟨hlower, by omega⟩
        · rw [hb]
          exact ⟨hupper, le_rfl⟩

/-- A decimal that is found reads back and lies on one of the grids tried. -/
theorem shortestFrom_spec {x : Binary64} {s : Int} {n c : Nat} {s' : Int}
    (h : x.shortestFrom s n = (c, s')) :
    (c = 0 ∧ s' = 0) ∨ (x.neighbour? s' = some c ∧ s < s' + n) := by
  induction n generalizing s with
  | zero =>
    cases h
    exact .inl ⟨rfl, rfl⟩
  | succ n ih =>
    rw [shortestFrom] at h
    cases hfound : x.neighbour? s with
    | some d =>
      rw [hfound] at h
      cases h
      exact .inr ⟨hfound, by omega⟩
    | none =>
      rw [hfound] at h
      rcases ih h with hnone | ⟨hsome, hlt⟩
      · exact .inl hnone
      · exact .inr ⟨hsome, by omega⟩

/-- Moving zeros into the exponent changes neither the value nor whether there are
digits at all. -/
theorem trimZeros_spec {c : Nat} {s : Int} {n c' : Nat} {s' : Int}
    (h : trimZeros c s n = (c', s')) :
    (c' : ℚ) * 10 ^ s' = c * 10 ^ s ∧ c' ≤ c ∧ s ≤ s' ∧ (c = 0 → c' = 0 ∧ s' = s) := by
  induction n generalizing c s with
  | zero =>
    cases h
    exact ⟨rfl, le_rfl, le_rfl, fun hc => ⟨hc, rfl⟩⟩
  | succ n ih =>
    rw [trimZeros] at h
    split at h
    · rename_i hc
      obtain ⟨hvalue, hle, hexponent, -⟩ := ih h
      refine ⟨?_, le_trans hle (Nat.div_le_self c 10), by omega, fun hzero => absurd hzero hc.1⟩
      have hdigits : (c : ℚ) = (c / 10 : Nat) * 10 := by
        have heq : c = c / 10 * 10 := (Nat.div_mul_cancel (Nat.dvd_of_mod_eq_zero hc.2)).symm
        exact_mod_cast heq
      rw [hvalue, hdigits, zpow_add₀ (by norm_num), zpow_one]
      ring
    · cases h
      exact ⟨rfl, le_rfl, le_rfl, fun hc => ⟨hc, rfl⟩⟩

/-- A multiple of a power of two is bounded by the number of digits of its scaled
floor. -/
theorem lt_ten_pow_digits {m e p k n : Nat} (hn : m * Nat.pow 2 e * Nat.pow 10 p / Nat.pow 2 k = n) :
    (m : ℚ) * 2 ^ ((e : Int) - k) < 10 ^ (((Nat.toDigits 10 n).length : Int) - p) := by
  have hlt : n < 10 ^ (Nat.toDigits 10 n).length :=
    (Nat.length_toDigits_le_iff (by norm_num) Nat.length_toDigits_pos).1 le_rfl
  generalize (Nat.toDigits 10 n).length = d at hlt ⊢
  simp only [Nat.pow_eq] at hn
  rw [← hn, Nat.div_lt_iff_lt_mul (Nat.pow_pos Nat.two_pos)] at hlt
  have hcast : (m : ℚ) * 2 ^ e * 10 ^ p < 10 ^ d * 2 ^ k := by exact_mod_cast hlt
  rw [zpow_sub₀ (by norm_num), zpow_sub₀ (by norm_num), zpow_natCast, zpow_natCast, zpow_natCast,
    zpow_natCast, mul_div_assoc', div_lt_div_iff₀ (by positivity) (by positivity)]
  exact hcast

/-- A number is below the power of ten after its first digit. -/
theorem size_lt_leadingPower {x : Binary64} (h : x.Finite) :
    x.size < 10 ^ (x.leadingPower + 1) := by
  have hlow := h.le_exponent
  have hexponent : x.exponent = ((x.exponent - minExponent).toNat : Int) - (1074 : Nat) := by
    rw [minExponent] at hlow ⊢
    omega
  unfold leadingPower
  generalize hn : x.significand * Nat.pow 2 (x.exponent - minExponent).toNat * Nat.pow 10 400 /
    Nat.pow 2 1074 = n
  have hlt := lt_ten_pow_digits hn
  rw [← hexponent] at hlt
  have hpower : ((Nat.toDigits 10 n).length : Int) - 401 + 1 =
      (Nat.toDigits 10 n).length - (400 : Nat) := by omega
  simp only
  rw [hpower]
  exact hlt

theorem le_leadingPower (x : Binary64) : -400 ≤ x.leadingPower := by
  unfold leadingPower
  generalize x.significand * Nat.pow 2 (x.exponent - minExponent).toNat * Nat.pow 10 400 /
    Nat.pow 2 1074 = n
  have hpos := Nat.length_toDigits_pos (b := 10) (n := n)
  simp only
  omega

/-- The shortest decimal of a number, unless none was found. -/
theorem shortest_shown {x : Binary64} {c : Nat} {s : Int} (hf : x.Finite)
    (h : x.shortest = (c, s)) : (c = 0 ∧ s = 0) ∨ Shown x c s := by
  unfold shortest at h
  split at h
  · cases h
    exact .inl ⟨rfl, rfl⟩
  · rename_i hx
    cases hfrom : x.shortestFrom x.leadingPower 18 with | mk c₀ s₀
    rw [hfrom] at h
    obtain ⟨hvalue, hle, hexponent, hzero⟩ := trimZeros_spec h
    rcases shortestFrom_spec hfrom with ⟨rfl, rfl⟩ | ⟨hfound, hgrid⟩
    · exact .inl (hzero rfl)
    · right
      obtain ⟨hback, hbelow⟩ := neighbour?_spec hfound
      obtain ⟨hlow, hhigh⟩ := readsBack_bounds hback
      rw [← hvalue] at hlow hhigh
      have hleading := x.le_leadingPower
      refine ⟨digits_pos_of_low (by simpa using hx) hlow, le_trans hle (le_trans hbelow ?_),
        by omega, hhigh⟩
      have hlt : (x.below s₀ : ℚ) * 10 ^ s₀ < 10 ^ 18 * 10 ^ s₀ := by
        calc (x.below s₀ : ℚ) * 10 ^ s₀ ≤ x.size := below_le x s₀
          _ < 10 ^ (x.leadingPower + 1) := size_lt_leadingPower hf
          _ ≤ 10 ^ ((18 : Nat) + s₀) := zpow_le_zpow_right₀ (by norm_num) (by omega)
          _ = 10 ^ 18 * 10 ^ s₀ := by rw [zpow_add₀ (by norm_num), zpow_natCast]
      have hdigits : (x.below s₀ : ℚ) < 10 ^ 18 := lt_of_mul_lt_mul_right hlt (ten_zpow_pos s₀).le
      have hnat : x.below s₀ < 10 ^ 18 := by exact_mod_cast hdigits
      omega

/-! ## Reading the shortest decimal -/

/-- The middle between the largest number and the power of two after it. -/
def ceiling : Nat := (4 * (2 ^ 53 - 1) + 2) * Nat.pow 2 (maxExponent - 2).toNat

theorem ceiling_cast : (ceiling : ℚ) = ((4 * (2 ^ 53 - 1) + 2 : Nat) : ℚ) * 2 ^ (maxExponent - 2) := by
  have hexponent : maxExponent - 2 = ((maxExponent - 2).toNat : Int) := by decide
  rw [hexponent, zpow_natCast, ceiling, Nat.pow_eq, Nat.cast_mul, Nat.cast_pow, Nat.cast_ofNat]

/-- The upper middle of a number, when its significand and exponent are bounded. -/
theorem Shown.le_middle {x : Binary64} {c s m : Nat} {e : Int} (h : Shown x c s)
    (hm : x.significand ≤ m) (he : x.exponent ≤ e) :
    (c : ℚ) * 10 ^ s ≤ ((4 * m + 2 : Nat) : ℚ) * 2 ^ (e - 2) := by
  have hhigh := h.high
  rw [zpow_natCast] at hhigh
  refine le_trans hhigh (mul_le_mul ?_ ?_ (two_zpow_pos _).le (Nat.cast_nonneg _))
  · have hle : 4 * x.significand + 2 ≤ 4 * m + 2 := by omega
    exact_mod_cast hle
  · exact zpow_le_zpow_right₀ (by norm_num) (by omega)

theorem Shown.le_ceiling {x : Binary64} {c s : Nat} (h : Shown x c s) (hf : x.Finite) :
    c * 10 ^ s ≤ ceiling := by
  have hsignificand := hf.significand_lt
  have hle := h.le_middle (m := 2 ^ 53 - 1) (by omega) hf.exponent_le
  rw [← ceiling_cast] at hle
  exact_mod_cast hle

/-- The one exponent from which on a decimal below the ceiling is not read. -/
def tightExponent : Nat := 292

/-- The digits of that decimal. -/
def tightDigits : Nat := 17976931348623158

/-- The largest digits at an exponent that a shortest decimal can have.  The decimal
below the ceiling at the tight exponent lies between the middles of the largest
number of the format, whose shortest decimal is the one before it. -/
def largestDigits (s : Nat) : Nat :=
  if s = tightExponent then tightDigits - 1 else min (10 ^ 18) (ceiling / 10 ^ s)

theorem largestDigits_isSome :
    ∀ k < 19, (ofDecimal (largestDigits (290 + k)) (290 + k : Nat)).isSome = true := by
  decide +kernel

theorem ofDecimal_largestDigits {s : Nat} (hlow : 290 ≤ s) (hs : s ≤ 308) :
    ∃ y, ofDecimal (largestDigits s) s = some y := by
  obtain ⟨k, rfl⟩ := Nat.exists_eq_add_of_le hlow
  exact Option.isSome_iff_exists.1 (largestDigits_isSome k (by omega))

theorem shortest_largest : ∀ negative,
    shortest ⟨negative, 2 ^ 53 - 1, maxExponent⟩ = (tightDigits - 1, (tightExponent : Int)) := by
  decide +kernel

theorem two_zpow_pred (e : Int) : (2 : ℚ) ^ (e - 2) = 2 * 2 ^ (e - 1 - 2) := by
  have hexponent : e - 2 = 1 + (e - 1 - 2) := by omega
  rw [hexponent, zpow_one_add₀ two_ne_zero]

/-- A decimal above the upper middles of all smaller numbers is one of the largest. -/
theorem Shown.largest {x : Binary64} {c s : Nat} (h : Shown x c s) (hf : x.Finite)
    (hhalf : ceiling < 2 * (c * 10 ^ s))
    (hless : (4 * (2 ^ 53 - 2) + 2) * Nat.pow 2 (maxExponent - 2).toNat < c * 10 ^ s) :
    x.significand = 2 ^ 53 - 1 ∧ x.exponent = maxExponent := by
  have hsignificand := hf.significand_lt
  have hexponent := hf.exponent_le
  constructor
  · -- otherwise the decimal is at most the upper middle of the next smaller number
    by_contra hne
    have hle := h.le_middle (m := 2 ^ 53 - 2) (by omega) hexponent
    have hpower : maxExponent - 2 = ((maxExponent - 2).toNat : Int) := by decide
    rw [hpower, zpow_natCast] at hle
    generalize (maxExponent - 2).toNat = k at hle hless
    have hnat : c * 10 ^ s ≤ (4 * (2 ^ 53 - 2) + 2) * 2 ^ k := by exact_mod_cast hle
    exact absurd (lt_of_lt_of_le hless hnat) (lt_irrefl _)
  · -- otherwise it is at most half the ceiling
    by_contra hne
    have hle := h.le_middle (m := 2 ^ 53 - 1) (e := maxExponent - 1) (by omega) (by omega)
    have htwice : 2 * ((c : ℚ) * 10 ^ s) ≤ ceiling := by
      have hscaled := mul_le_mul_of_nonneg_left hle zero_le_two
      rw [ceiling_cast, two_zpow_pred]
      rwa [mul_left_comm (2 : ℚ) ((4 * (2 ^ 53 - 1) + 2 : Nat) : ℚ)] at hscaled
    have hnat : 2 * (c * 10 ^ s) ≤ ceiling := by exact_mod_cast htwice
    exact absurd (lt_of_lt_of_le hhalf hnat) (lt_irrefl _)

theorem Shown.exponent_le {x : Binary64} {c s : Nat} (h : Shown x c s) (hf : x.Finite) :
    s ≤ 308 := by
  by_contra hlt
  obtain ⟨k, rfl⟩ : ∃ k, s = 154 + (155 + k) := ⟨s - 309, by omega⟩
  have hceiling : ceiling < 10 ^ 154 * (10 ^ 155 * 1) := by decide +kernel
  have hle : 10 ^ 154 * (10 ^ 155 * 1) ≤ c * 10 ^ (154 + (155 + k)) := by
    rw [Nat.pow_add, Nat.pow_add]
    calc 10 ^ 154 * (10 ^ 155 * 1) ≤ 10 ^ 154 * (10 ^ 155 * 10 ^ k) :=
          Nat.mul_le_mul_left _ (Nat.mul_le_mul_left _ (Nat.pow_pos (by norm_num)))
      _ ≤ c * (10 ^ 154 * (10 ^ 155 * 10 ^ k)) := Nat.le_mul_of_pos_left _ h.digits_pos
  exact absurd (lt_of_lt_of_le hceiling (le_trans hle (h.le_ceiling hf))) (lt_irrefl _)

/-- The digits of a shortest decimal are among those that are read. -/
theorem Shown.le_largestDigits {x : Binary64} {c s : Nat} (h : Shown x c s) (hf : x.Finite)
    (hshort : x.shortest = (c, (s : Int))) : c ≤ largestDigits s := by
  have hle : c ≤ ceiling / 10 ^ s :=
    (Nat.le_div_iff_mul_le (Nat.pow_pos (by norm_num))).2 (h.le_ceiling hf)
  unfold largestDigits
  split
  · rename_i hs
    subst hs
    have htight : ceiling / 10 ^ tightExponent = tightDigits := by decide +kernel
    rw [htight] at hle
    -- only the largest number could have the tight digits, and it has others
    by_contra hgt
    have hdigits : c = tightDigits := by omega
    subst hdigits
    obtain ⟨hsignificand, hexponent⟩ := h.largest hf (by decide +kernel) (by decide +kernel)
    have hlargest := shortest_largest x.negative
    rw [← hsignificand, ← hexponent, hshort] at hlargest
    exact absurd (congrArg Prod.fst hlargest) (by decide)
  · exact le_min h.digits_le hle

/-- **The shortest decimal of a number can be read**, when its exponent is not
negative. -/
theorem shortest_read {x : Binary64} {c s : Nat} (hf : x.Finite) (h : x.shortest = (c, (s : Int))) :
    ∃ y, ofDecimal c s = some y := by
  obtain ⟨y, hy⟩ := ofDecimal_largestDigits le_rfl (s := 290) (by omega)
  rcases shortest_shown hf h with ⟨rfl, hs⟩ | hshown
  · exact ofDecimal_mono (Nat.zero_le _) (by omega) (by omega) hy
  have hs := hshown.exponent_le hf
  -- up to exponent 290 digits are never too many
  rcases Nat.le_total s 290 with hsmall | hlarge
  · have hbound : 10 ^ 18 ≤ largestDigits 290 := by decide +kernel
    exact ofDecimal_mono (le_trans hshown.digits_le hbound) hsmall (by omega) hy
  · obtain ⟨z, hz⟩ := ofDecimal_largestDigits hlarge hs
    exact ofDecimal_mono (hshown.le_largestDigits hf h) le_rfl hs hz

end Binary64
end LaneBus
