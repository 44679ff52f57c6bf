import Mathlib.Algebra.Order.Field.Basic
import Mathlib.Tactic.SplitIfs
import LaneBus.Proofs.Tokens
import LaneBus.Timestamp.Wire

/-! # Reading back timestamps

A number with zeros in front is read back by as many digits (`scanNumber_padded`),
and from there every part of a timestamp is, up to the whole (`parse_text`).  What
is read is a valid timestamp, whatever the offset from universal time
(`parse_valid`).
-/
namespace LaneBus
namespace Timestamp

open Json

/-! ## Numbers of fixed width -/

theorem digitsUpTo_append {width n : Nat} {ds rest : List Char} (hds : ∀ c ∈ ds, c.isDigit = true)
    (hwidth : ds.length ≤ width) (hend : ds.length = width ∨ EndsDigits rest) :
    digitsUpTo width n (ds ++ rest) = (Nat.ofDigitChars 10 ds n, rest) := by
  induction ds generalizing width n with
  | nil =>
    rw [List.nil_append, Nat.ofDigitChars_nil]
    cases width with
    | zero => rfl
    | succ width =>
      have hrest := hend.resolve_left (by rw [List.length_nil]; omega)
      cases rest with
      | nil => rfl
      | cons c rest => rw [digitsUpTo, hrest c rfl, if_neg Bool.false_ne_true]
  | cons c ds ih =>
    rw [List.length_cons] at hwidth hend
    obtain ⟨width, rfl⟩ : ∃ w, width = w + 1 := ⟨width - 1, by omega⟩
    rw [List.cons_append, digitsUpTo, if_pos (hds c List.mem_cons_self), Nat.ofDigitChars_cons,
      Nat.mul_comm 10]
    refine ih (fun d hd => hds d (List.mem_cons_of_mem c hd)) (by omega) ?_
    rcases hend with heq | hrest
    · exact .inl (by omega)
    · exact .inr hrest

theorem padded_digits {width n : Nat} {c : Char} (h : c ∈ padded width n) : c.isDigit = true := by
  unfold padded at h
  rcases List.mem_append.1 h with h | h
  · rw [List.eq_of_mem_replicate h]
    decide
  · exact isDigit_toDigits h

theorem padded_value (width n : Nat) : Nat.ofDigitChars 10 (padded width n) 0 = n := by
  unfold padded
  rw [Nat.ofDigitChars_append, Nat.ofDigitChars_replicate_zero, Nat.mul_zero,
    Nat.ofDigitChars_ten_toDigits]

theorem padded_length {width n : Nat} (hwidth : 0 < width) (h : n < 10 ^ width) :
    (padded width n).length = width := by
  have hle := (Nat.length_toDigits_le_iff (by omega) hwidth).2 h
  unfold padded
  rw [List.length_append, List.length_replicate]
  omega

theorem padded_cons (width n : Nat) : ∃ c cs, padded width n = c :: cs ∧ c.isDigit = true := by
  cases h : padded width n with
  | nil =>
    unfold padded at h
    exact absurd (List.append_eq_nil_iff.1 h).2 Nat.toDigits_ne_nil
  | cons c cs => exact ⟨c, cs, rfl, padded_digits (by rw [h]; exact List.mem_cons_self)⟩

theorem scanNumber_digits {width n w : Nat} {rest : List Char}
    (hwidth : (padded w n).length ≤ width)
    (hend : (padded w n).length = width ∨ EndsDigits rest) :
    scanNumber width (padded w n ++ rest) = .ok (n, rest) := by
  have hread := digitsUpTo_append (n := 0) (fun c hc => padded_digits hc) hwidth hend
  rw [padded_value] at hread
  obtain ⟨c, cs, heq, hc⟩ := padded_cons w n
  rw [heq, List.cons_append] at hread ⊢
  rw [scanNumber, if_pos hc, hread]

theorem scanNumber_padded {width n : Nat} (hwidth : 0 < width) (h : n < 10 ^ width)
    (rest : List Char) : scanNumber width (padded width n ++ rest) = .ok (n, rest) :=
  scanNumber_digits (Nat.le_of_eq (padded_length hwidth h)) (.inl (padded_length hwidth h))

/-! ## Fields and marks -/

theorem trimFront_cons {c : Char} (rest : List Char) (h : Text.isBlank c = false) :
    Text.trimFront (c :: rest) = c :: rest := by
  rw [Text.trimFront, List.dropWhile_cons, h]
  rfl

theorem isBlank_of_isDigit {c : Char} (h : c.isDigit = true) : Text.isBlank c = false := by
  obtain ⟨hlow, hhigh⟩ := (isDigit_iff c).1 h
  have hlow' : 48 ≤ c.toNat := hlow
  have hhigh' : c.toNat ≤ 57 := hhigh
  unfold Text.isBlank
  simp only [Bool.or_eq_false_iff, Bool.and_eq_false_iff, decide_eq_false_iff_not, beq_eq_false_iff_ne]
  omega

theorem trimFront_padded (width n : Nat) (rest : List Char) :
    Text.trimFront (padded width n ++ rest) = padded width n ++ rest := by
  obtain ⟨c, cs, heq, hc⟩ := padded_cons width n
  rw [heq, List.cons_append, trimFront_cons _ (isBlank_of_isDigit hc)]

theorem scanField_padded {low high n : Nat} (hlow : low ≤ n) (hhigh : n ≤ high)
    (hwidth : high < 100) (rest : List Char) :
    scanField low high (padded 2 n ++ rest) = .ok (n, rest) := by
  rw [scanField, trimFront_padded, scanNumber_padded (by omega) (by omega)]
  simp only
  rw [if_pos ⟨hlow, hhigh⟩]

theorem scanMark_cons {mark : Char} (rest : List Char) (h : Text.isBlank mark = false) :
    scanMark mark (mark :: rest) = .ok ((), rest) := by
  rw [scanMark, trimFront_cons rest h]
  exact if_pos rfl

theorem scanYear_text {year : Int} (hlow : minYear ≤ year) (hhigh : year ≤ maxYear)
    (rest : List Char) (hrest : EndsDigits rest) :
    scanYear (yearText year ++ rest) = .ok (year, rest) := by
  rw [minYear] at hlow
  rw [maxYear] at hhigh
  have hlowest : Word.minInt 32 = -2147483648 := by decide +kernel
  have hhighest : Word.maxInt 32 = 2147483647 := by decide +kernel
  have hsigned : scanNumber (padded 4 year.natAbs ++ rest).length (padded 4 year.natAbs ++ rest) =
      .ok (year.natAbs, rest) :=
    scanNumber_digits (by rw [List.length_append]; omega) (.inr hrest)
  unfold yearText
  split
  · rename_i hfour
    have hread : scanNumber 4 (padded 4 year.natAbs ++ rest) = .ok (year.natAbs, rest) :=
      scanNumber_padded (by omega) (by omega) rest
    unfold scanYear
    rw [trimFront_padded]
    -- the year starts with a digit, so it is not taken for one with a sign
    obtain ⟨c, cs, heq, hc⟩ := padded_cons 4 year.natAbs
    rw [heq, List.cons_append] at hread ⊢
    simp only
    split
    · rename_i h
      cases h
      cases hc
    · rename_i h
      cases h
      cases hc
    · rw [hread]
      simp only
      rw [show ((year.natAbs : Nat) : Int) = year by omega]
  · split
    · rename_i hneg
      rw [List.cons_append, scanYear, trimFront_cons _ (by decide)]
      simp only
      rw [hsigned]
      simp only
      rw [show -1 * ((year.natAbs : Nat) : Int) = year by omega, if_pos (by omega)]
    · rename_i hpos
      rw [List.cons_append, scanYear, trimFront_cons _ (by decide)]
      simp only
      rw [hsigned]
      simp only
      rw [show 1 * ((year.natAbs : Nat) : Int) = year by omega, if_pos (by omega)]

/-! ## Fractions and offsets -/

theorem endsDigits_zone : EndsDigits ['Z'] := endsDigits_cons [] (by decide)

theorem scanFraction_padded {width n : Nat} (hwidth : 0 < width) (hmost : width ≤ 9)
    (h : n < 10 ^ width) :
    scanFraction ('.' :: (padded width n ++ ['Z'])) = .ok (n * 10 ^ (9 - width), ['Z']) := by
  have hread : scanNumber 9 (padded width n ++ ['Z']) = .ok (n, ['Z']) :=
    scanNumber_digits (by rw [padded_length hwidth h]; exact hmost) (.inr endsDigits_zone)
  have hused : (padded width n ++ ['Z']).length - ['Z'].length = width := by
    rw [List.length_append, padded_length hwidth h]
    omega
  rw [scanFraction, hread]
  simp only
  rw [hused, Nat.pow_eq]
  rfl

theorem scanFraction_text {nano : Nat} (h : nano < 1000000000) :
    scanFraction (fractionText nano ++ ['Z']) = .ok (nano, ['Z']) := by
  unfold fractionText
  split_ifs with hzero hmilli hmicro
  · rw [hzero]
    rfl
  · rw [List.cons_append, scanFraction_padded (by omega) (by omega) (by omega),
      show nano / 1000000 * 10 ^ (9 - 3) = nano by omega]
  · rw [List.cons_append, scanFraction_padded (by omega) (by omega) (by omega),
      show nano / 1000 * 10 ^ (9 - 6) = nano by omega]
  · rw [List.cons_append, scanFraction_padded (by omega) (by omega) (by omega),
      show nano * 10 ^ (9 - 9) = nano by omega]

theorem scanOffset_zone : scanOffset (Text.trimFront ['Z']) = .ok (0, []) := by
  rw [trimFront_cons [] (by decide), scanOffset, if_neg (by decide +kernel), if_pos (.inl rfl)]

theorem scanSeparator_mark (rest : List Char) : scanSeparator ('T' :: rest) = .ok ((), rest) := rfl

/-! ## Whole timestamps -/

theorem earlier?_zero {t : Timestamp} (h : t.Valid) : t.earlier? 0 = some t := by
  obtain ⟨-, -, -, -, -, -, hhour, hminute, -, -⟩ := h
  unfold earlier?
  simp only [Int.sub_zero]
  have hwithin : (((t.hour * 60 + t.minute : Nat) : Int) % 1440).toNat = t.hour * 60 + t.minute := by
    omega
  rw [if_neg (by omega), if_neg (by omega), hwithin]
  have hhour' : (t.hour * 60 + t.minute) / 60 = t.hour := by omega
  have hminute' : (t.hour * 60 + t.minute) % 60 = t.minute := by omega
  rw [hhour', hminute']

/-- **A valid timestamp is read back from its text.** -/
theorem parse_text {t : Timestamp} (h : t.Valid) : parse t.text = .ok t := by
  have hvalid := h
  obtain ⟨hyear, hyear', hmonth, hmonth', hday, hday', hhour, hminute, hsecond, hnano⟩ := h
  have hdays : daysIn t.year t.month ≤ 31 := by
    unfold daysIn
    split_ifs <;> omega
  have hdash : ∀ rest, scanMark '-' ('-' :: rest) = .ok ((), rest) :=
    fun rest => scanMark_cons rest (by decide)
  have hcolon : ∀ rest, scanMark ':' (':' :: rest) = .ok ((), rest) :=
    fun rest => scanMark_cons rest (by decide)
  unfold parse text chars
  simp only [String.toList_ofList, List.append_assoc, List.cons_append]
  -- one part after the other, in the order in which they are written
  rw [scanYear_text hyear hyear' _ (endsDigits_cons _ (by decide))]
  simp only [bind, Except.bind]
  rw [hdash]
  simp only
  rw [scanField_padded hmonth hmonth' (by omega)]
  simp only
  rw [hdash]
  simp only
  rw [scanField_padded hday (by omega) (by omega)]
  simp only
  rw [scanSeparator_mark]
  simp only
  rw [scanField_padded (by omega) hhour (by omega)]
  simp only
  rw [hcolon]
  simp only
  rw [scanField_padded (by omega) hminute (by omega)]
  simp only
  rw [hcolon]
  simp only
  rw [scanField_padded (by omega) hsecond (by omega)]
  simp only
  rw [scanFraction_text hnano]
  simp only
  rw [scanOffset_zone]
  simp only
  rw [if_neg (by decide), if_neg ?_, earlier?_zero hvalid]
  · rfl
  · rintro (hnot | hfar)
    · exact hnot hvalid
    · cases hfar

/-! ## Only valid timestamps are read -/

theorem one_le_daysIn (year : Int) (month : Nat) : 1 ≤ daysIn year month := by
  unfold daysIn
  split_ifs <;> omega

theorem daysIn_december (year : Int) : daysIn year 12 = 31 := by
  unfold daysIn
  rw [if_neg (by decide), if_neg (by decide)]

theorem nextDay?_valid {t t' : Timestamp} (h : t.Valid) (hnext : t.nextDay? = some t') :
    t'.Valid := by
  obtain ⟨hyear, hyear', hmonth, hmonth', hday, hday', htime⟩ := h
  unfold nextDay? at hnext
  split_ifs at hnext with hd hm hy
  · cases hnext
    exact ⟨hyear, hyear', hmonth, hmonth', Nat.le_add_left 1 t.day, hd, htime⟩
  · cases hnext
    exact ⟨hyear, hyear', Nat.le_add_left 1 t.month, hm, Nat.le_refl 1, one_le_daysIn _ _, htime⟩
  · cases hnext
    exact ⟨Int.le_trans hyear (Int.le_add_one (Int.le_refl _)), hy, Nat.le_refl 1,
      Nat.le_add_left 1 11, Nat.le_refl 1, one_le_daysIn _ _, htime⟩

theorem previousDay?_valid {t t' : Timestamp} (h : t.Valid) (hprevious : t.previousDay? = some t') :
    t'.Valid := by
  obtain ⟨hyear, hyear', hmonth, hmonth', hday, hday', htime⟩ := h
  unfold previousDay? at hprevious
  split_ifs at hprevious with hd hm hy
  · cases hprevious
    exact ⟨hyear, hyear', hmonth, hmonth', Nat.le_sub_one_of_lt hd,
      Nat.le_trans (Nat.sub_le t.day 1) hday', htime⟩
  · cases hprevious
    exact ⟨hyear, hyear', Nat.le_sub_one_of_lt hm, Nat.le_trans (Nat.sub_le t.month 1) hmonth',
      one_le_daysIn _ _, Nat.le_refl _, htime⟩
  · cases hprevious
    refine ⟨Int.le_sub_one_of_lt hy, Int.le_trans (Int.sub_le_self _ (by decide)) hyear', ?_,
      Nat.le_refl 12, ?_, Nat.le_of_eq (daysIn_december (t.year - 1)).symm, htime⟩
    · show 1 ≤ 12
      omega
    · show 1 ≤ 31
      omega

theorem earlier?_valid {t t' : Timestamp} {minutes : Int} (h : t.Valid)
    (hearlier : t.earlier? minutes = some t') : t'.Valid := by
  have hclock : ∀ m < 1440, ({ t with hour := m / 60, minute := m % 60 } : Timestamp).Valid := by
    intro m hm
    obtain ⟨hyear, hyear', hmonth, hmonth', hday, hday', -, -, hsecond, hnano⟩ := h
    refine ⟨hyear, hyear', hmonth, hmonth', hday, hday', ?_, ?_, hsecond, hnano⟩
    · show m / 60 ≤ 23
      omega
    · show m % 60 ≤ 59
      omega
  have hwithin : ((((t.hour * 60 + t.minute : Nat) : Int) - minutes) % 1440).toNat < 1440 := by
    omega
  unfold earlier? at hearlier
  simp only at hearlier
  split_ifs at hearlier with hbefore hafter
  · exact previousDay?_valid (hclock _ hwithin) hearlier
  · exact nextDay?_valid (hclock _ hwithin) hearlier
  · cases hearlier
    exact hclock _ hwithin

theorem except_bind_ok {ε α β : Type} {x : Except ε α} {f : α → Except ε β} {b : β}
    (h : (x >>= f) = .ok b) : ∃ a, x = .ok a ∧ f a = .ok b := by
  cases x with
  | error e => cases h
  | ok a => exact ⟨a, rfl, h⟩

/-- **Only valid timestamps are read.** -/
theorem parse_valid {text : String} {t : Timestamp} (h : parse text = .ok t) : t.Valid := by
  unfold parse at h
  obtain ⟨⟨year, s⟩, -, h⟩ := except_bind_ok h
  obtain ⟨⟨⟨⟩, s⟩, -, h⟩ := except_bind_ok h
  obtain ⟨⟨month, s⟩, -, h⟩ := except_bind_ok h
  obtain ⟨⟨⟨⟩, s⟩, -, h⟩ := except_bind_ok h
  obtain ⟨⟨day, s⟩, -, h⟩ := except_bind_ok h
  obtain ⟨⟨⟨⟩, s⟩, -, h⟩ := except_bind_ok h
  obtain ⟨⟨hour, s⟩, -, h⟩ := except_bind_ok h
  obtain ⟨⟨⟨⟩, s⟩, -, h⟩ := except_bind_ok h
  obtain ⟨⟨minute, s⟩, -, h⟩ := except_bind_ok h
  obtain ⟨⟨⟨⟩, s⟩, -, h⟩ := except_bind_ok h
  obtain ⟨⟨second, s⟩, -, h⟩ := except_bind_ok h
  obtain ⟨⟨nano, s⟩, -, h⟩ := except_bind_ok h
  obtain ⟨⟨offset, s⟩, -, h⟩ := except_bind_ok h
  simp only at h
  split_ifs at h with hlong hbad hbad
  · cases h
  · cases h
  · cases h
  · have hvalid := not_not.1 (not_or.1 hbad).1
    split at h
    · rename_i hearlier
      cases h
      exact earlier?_valid hvalid hearlier
    · cases h

end Timestamp
end LaneBus
