import LaneBus.Proofs.Decimals
import LaneBus.Proofs.Tokens

/-! # Reading back numbers

A number is sound when it is an integer of 64 bits, with a sign or without, or is
within the bounds of the format (`Number.Sound`).  The text of a sound number is
read as a sound number, an integer as itself (`readNumber_text`); and only sound
numbers are read (`readNumber_sound`).
-/
namespace LaneBus
namespace Json

/-- A number that some text stands for. -/
def Number.Sound : Number → Prop
  | .int n => -(2 ^ 63 : Nat) ≤ n ∧ n < natBound
  | .float x => x.Finite

/-! ## What follows a number -/

theorem readAfterInteger_end (negative : Bool) (digits : Nat) {rest : List Char}
    (h : EndsNumber rest) :
    readAfterInteger negative digits rest = .ok (integerOf negative digits, rest) := by
  cases rest with
  | nil => rfl
  | cons c rest =>
    obtain ⟨-, hpoint, he, hE⟩ := h c rfl
    simp [readAfterInteger, hpoint, he, hE]

theorem readAfterFraction_end (negative : Bool) (digits : Nat) (exponent : Int)
    {rest : List Char} (h : EndsNumber rest) :
    readAfterFraction negative digits exponent rest =
      finishFloat negative digits exponent rest := by
  cases rest with
  | nil => rfl
  | cons c rest =>
    obtain ⟨-, -, he, hE⟩ := h c rfl
    simp [readAfterFraction, he, hE]

/-- An exponent with its sign. -/
def exponentText (power : Int) : List Char :=
  (if power < 0 then ['-'] else ['+']) ++ Nat.toDigits 10 power.natAbs

theorem readExponent_text (negative : Bool) (digits : Nat) (start : Int) {power : Int}
    {rest : List Char} (hrest : EndsDigits rest) (hpower : power.natAbs < Word.count 31) :
    readExponent negative digits start (exponentText power ++ rest) =
      finishFloat negative digits (start + power) rest := by
  have hvalue := Nat.ofDigitChars_ten_toDigits (n := power.natAbs)
  have hdigits : ∀ d ∈ Nat.toDigits 10 power.natAbs, d.isDigit = true :=
    fun d hd => isDigit_toDigits hd
  unfold exponentText
  cases hds : Nat.toDigits 10 power.natAbs with
  | nil => exact absurd hds Nat.toDigits_ne_nil
  | cons c cs =>
    rw [hds] at hvalue hdigits
    rw [Nat.ofDigitChars_cons, Nat.mul_zero, Nat.zero_add] at hvalue
    have hloop := fun expNegative => readExponentDigits_append negative digits start expNegative
      (fun d hd => hdigits d (List.mem_cons_of_mem c hd)) hrest (by rw [hvalue]; exact hpower)
    have hfirst := digit?_of_isDigit (hdigits c List.mem_cons_self)
    rw [hvalue] at hloop
    split
    · rename_i hneg
      rw [List.append_assoc, List.singleton_append, List.cons_append, readExponent]
      simp only [hfirst]
      rw [hloop true, if_pos rfl]
      congr 1
      omega
    · rename_i hpos
      rw [List.append_assoc, List.singleton_append, List.cons_append, readExponent]
      simp only [hfirst]
      rw [hloop false, if_neg Bool.false_ne_true]
      congr 1
      omega

/-! ## Digits around a point -/

theorem isDigit_zero : ∀ d ∈ ['0'], d.isDigit = true := by
  intro d hd
  rw [List.mem_singleton.1 hd]
  decide

/-- Digits, a point and more digits. -/
theorem readUnsigned_point (negative : Bool) {c : Char} {ds fs rest : List Char} (hc : c ≠ '0')
    (hds : ∀ d ∈ c :: ds, d.isDigit = true) (hfs : ∀ d ∈ fs, d.isDigit = true) (hne : fs ≠ [])
    (hrest : EndsDigits rest) (hn : Nat.ofDigitChars 10 (c :: ds ++ fs) 0 < natBound) :
    readUnsigned negative (c :: ds ++ '.' :: (fs ++ rest)) =
      readAfterFraction negative (Nat.ofDigitChars 10 (c :: ds ++ fs) 0) (-fs.length) rest := by
  rw [Nat.ofDigitChars_append] at hn ⊢
  have hwhole := Nat.lt_of_le_of_lt (le_ofDigitChars _ fs) hn
  have hlength := List.length_pos_of_ne_nil hne
  rw [readUnsigned_digits negative hc hds (endsDigits_cons _ (by decide)) hwhole, readAfterInteger,
    readFractionDigits_append negative 0 hfs hrest hn (by omega), Nat.zero_add, Int.zero_sub]

/-- A zero, a point and digits. -/
theorem readUnsigned_zero_point (negative : Bool) {fs rest : List Char}
    (hfs : ∀ d ∈ fs, d.isDigit = true) (hne : fs ≠ []) (hrest : EndsDigits rest)
    (hn : Nat.ofDigitChars 10 fs 0 < natBound) :
    readUnsigned negative ('0' :: '.' :: (fs ++ rest)) =
      readAfterFraction negative (Nat.ofDigitChars 10 fs 0) (-fs.length) rest := by
  have hlength := List.length_pos_of_ne_nil hne
  rw [readUnsigned_zero negative (endsDigits_cons _ (by decide)), readAfterInteger,
    readFractionDigits_append negative 0 hfs hrest hn (by omega), Nat.zero_add, Int.zero_sub]

theorem readAfterFraction_exponent (negative : Bool) (digits : Nat) (start : Int) {power : Int}
    {rest : List Char} (hrest : EndsDigits rest) (hpower : power.natAbs < Word.count 31) :
    readAfterFraction negative digits start ('e' :: (exponentText power ++ rest)) =
      finishFloat negative digits (start + power) rest :=
  readExponent_text negative digits start hrest hpower

/-! ## Decimals -/

/-- The digits and the exponent as which a written decimal is read: its own, or
those of a whole number followed by a point and a zero. -/
def ReadAs (c : Nat) (s : Int) (digits : Nat) (exponent : Int) : Prop :=
  (digits = c ∧ exponent = s) ∨ (digits < natBound ∧ exponent < 0)

/-- A text is read as a decimal, after either sign and whatever closes it. -/
def ReadsAs (text : List Char) (digits : Nat) (exponent : Int) : Prop :=
  ∀ negative rest, Closes rest →
    readUnsigned negative (text ++ rest) = finishFloat negative digits exponent rest

section

variable {c : Nat} {d : Char} {ds : List Char}

/-- The digits of a positive number. -/
structure Spells (c : Nat) (d : Char) (ds : List Char) : Prop where
  head : d ≠ '0'
  digits : ∀ x ∈ d :: ds, x.isDigit = true
  value : Nat.ofDigitChars 10 (d :: ds) 0 = c
  lt_pow : c < 10 ^ (d :: ds).length

theorem spells_toDigits (h : 0 < c) : ∃ d ds, Nat.toDigits 10 c = d :: ds ∧ Spells c d ds := by
  obtain ⟨d, ds, heq, hne⟩ := toDigits_head h
  refine ⟨d, ds, heq, hne, ?_, ?_, ?_⟩
  · intro x hx
    rw [← heq] at hx
    exact isDigit_toDigits hx
  · rw [← heq]
    exact Nat.ofDigitChars_ten_toDigits
  · rw [← heq]
    exact (Nat.length_toDigits_le_iff (by omega) Nat.length_toDigits_pos).1 (Nat.le_refl _)

/-- A whole number with zeros behind its digits, a point and a zero. -/
theorem Spells.whole (h : Spells c d ds) (zeros : Nat) (hlength : (d :: ds).length + zeros ≤ 16) :
    10 * (10 ^ zeros * c) < natBound ∧
      ReadsAs (d :: ds ++ List.replicate zeros '0' ++ ['.', '0']) (10 * (10 ^ zeros * c)) (-1) := by
  have hlt : 10 ^ zeros * c < 10 ^ 16 := by
    calc 10 ^ zeros * c < 10 ^ zeros * 10 ^ (d :: ds).length :=
          Nat.mul_lt_mul_of_pos_left h.lt_pow (Nat.pow_pos (by omega))
      _ = 10 ^ ((d :: ds).length + zeros) := by rw [Nat.add_comm, Nat.pow_add]
      _ ≤ 10 ^ 16 := Nat.pow_le_pow_right (by omega) hlength
  have hbound : 10 * (10 ^ zeros * c) < natBound := by
    have hsmall : 10 * 10 ^ 16 < natBound := by decide +kernel
    omega
  refine ⟨hbound, fun negative rest hrest => ?_⟩
  have hvalue : Nat.ofDigitChars 10 (d :: (ds ++ List.replicate zeros '0') ++ ['0']) 0 =
      10 * (10 ^ zeros * c) := by
    rw [Nat.ofDigitChars_append, ← List.cons_append, Nat.ofDigitChars_append, h.value,
      Nat.ofDigitChars_replicate_zero, Nat.ofDigitChars_cons, Nat.ofDigitChars_nil]
    simp
  have hdigits : ∀ x ∈ d :: (ds ++ List.replicate zeros '0'), x.isDigit = true := by
    intro x hx
    rw [← List.cons_append, List.mem_append] at hx
    rcases hx with hx | hx
    · exact h.digits x hx
    · rw [List.eq_of_mem_replicate hx]
      decide
  have hread := readUnsigned_point negative h.head hdigits isDigit_zero (List.cons_ne_nil _ _)
    hrest.endsDigits (by rw [hvalue]; exact hbound)
  rw [hvalue, readAfterFraction_end negative _ _ hrest.endsNumber] at hread
  simpa using hread

/-- A point among the digits. -/
theorem Spells.inside (h : Spells c d ds) (hc : c < natBound) (place : Nat) (hplace : 0 < place)
    (hlt : place < (d :: ds).length) :
    ReadsAs ((d :: ds).take place ++ '.' :: (d :: ds).drop place) c
      ((place : Int) - (d :: ds).length) := by
  intro negative rest hrest
  obtain ⟨k, rfl⟩ : ∃ k, place = k + 1 := ⟨place - 1, by omega⟩
  have hjoin : d :: ds.take k ++ ds.drop k = d :: ds := by
    rw [List.cons_append, List.take_append_drop]
  have hdrop : (ds.drop k).length = (d :: ds).length - (k + 1) := by
    rw [List.length_drop, List.length_cons]
    omega
  have hne : ds.drop k ≠ [] := List.ne_nil_of_length_pos (by omega)
  have htake : ∀ x ∈ d :: ds.take k, x.isDigit = true := by
    intro x hx
    exact h.digits x (by rw [← hjoin]; exact List.mem_append_left _ hx)
  have hread := readUnsigned_point negative h.head htake
    (fun x hx => h.digits x (List.mem_cons_of_mem d (List.mem_of_mem_drop hx))) hne
    hrest.endsDigits (by rw [hjoin, h.value]; exact hc)
  rw [hjoin, h.value, readAfterFraction_end negative _ _ hrest.endsNumber] at hread
  have hsplit : d :: List.take k ds ++ '.' :: List.drop k ds ++ rest =
      d :: List.take k ds ++ '.' :: (List.drop k ds ++ rest) := List.append_assoc ..
  rw [List.take_succ_cons, List.drop_succ_cons, hsplit, hread]
  congr 1
  omega

/-- Zeros between the point and the digits. -/
theorem Spells.behind (h : Spells c d ds) (hc : c < natBound) (zeros : Nat) :
    ReadsAs ('0' :: '.' :: List.replicate zeros '0' ++ d :: ds) c
      (-(zeros + (d :: ds).length : Nat)) := by
  intro negative rest hrest
  have hvalue : Nat.ofDigitChars 10 (List.replicate zeros '0' ++ d :: ds) 0 = c := by
    rw [Nat.ofDigitChars_append, Nat.ofDigitChars_replicate_zero, Nat.mul_zero, h.value]
  have hdigits : ∀ x ∈ List.replicate zeros '0' ++ d :: ds, x.isDigit = true := by
    intro x hx
    rcases List.mem_append.1 hx with hx | hx
    · rw [List.eq_of_mem_replicate hx]
      decide
    · exact h.digits x hx
  have hread := readUnsigned_zero_point negative hdigits (by simp) hrest.endsDigits
    (by rw [hvalue]; exact hc)
  rw [hvalue, readAfterFraction_end negative _ _ hrest.endsNumber, List.length_append,
    List.length_replicate] at hread
  simpa using hread

/-- One digit before the point and an exponent. -/
theorem Spells.scientific (h : Spells c d ds) (hc : c < natBound) (power : Int)
    (hpower : power.natAbs < Word.count 31) (text : List Char)
    (htext : text = if ds = [] then d :: 'e' :: exponentText power
      else d :: '.' :: (ds ++ 'e' :: exponentText power)) :
    ReadsAs text c (power - ds.length) := by
  intro negative rest hrest
  subst htext
  split
  · rename_i hnil
    subst hnil
    rw [List.cons_append, List.cons_append,
      show d :: 'e' :: (exponentText power ++ rest) = [d] ++ 'e' :: (exponentText power ++ rest)
        from rfl,
      readUnsigned_digits negative h.head h.digits (endsDigits_cons _ (by decide))
        (by rw [h.value]; exact hc),
      readAfterInteger, readExponent_text negative _ 0 hrest.endsDigits hpower, h.value]
    congr 1
    rw [List.length_nil]
    omega
  · rename_i hne
    have hfirst : ∀ x ∈ [d], x.isDigit = true := fun x hx => h.digits x (by simp_all)
    have hmark : EndsDigits ('e' :: (exponentText power ++ rest)) := endsDigits_cons _ (by decide)
    have hread := readUnsigned_point negative h.head hfirst
      (fun x hx => h.digits x (List.mem_cons_of_mem d hx)) hne hmark
      (by rw [List.singleton_append, h.value]; exact hc)
    simp only [List.cons_append, List.nil_append, List.append_assoc] at hread ⊢
    rw [h.value, readAfterFraction_exponent negative _ _ hrest.endsDigits hpower] at hread
    rw [hread]
    congr 1
    omega

end

/-- A positive decimal of few digits and a moderate exponent is read as it was written,
or as the whole number that it is. -/
theorem writeDecimal_readsAs {c : Nat} {s : Int} (hpos : 0 < c) (hc : c ≤ 10 ^ 18)
    (hlow : -417 ≤ s) (hhigh : s ≤ 308) :
    ∃ digits exponent, ReadAs c s digits exponent ∧
      ReadsAs (Binary64.writeDecimal (Nat.toDigits 10 c) s) digits exponent := by
  obtain ⟨d, ds, heq, h⟩ := spells_toDigits hpos
  have hfits : c < natBound := by
    have hsmall : 10 ^ 18 < natBound := by decide +kernel
    omega
  have hfew : (d :: ds).length ≤ 19 := by
    rw [← heq, Nat.length_toDigits_le_iff (by omega) (by omega)]
    omega
  rw [heq]
  unfold Binary64.writeDecimal
  simp only
  -- as a whole number, with a point inside, with a point in front, or scientific
  split
  · rename_i hwhole
    obtain ⟨hbound, hreads⟩ := h.whole s.toNat (by omega)
    exact ⟨_, -1, .inr ⟨hbound, by decide⟩, by simpa using hreads⟩
  · split
    · rename_i hnot hinside
      obtain ⟨place, hplace⟩ : ∃ p : Nat, ((d :: ds).length : Int) + s = p :=
        Int.eq_ofNat_of_zero_le (by omega)
      have hreads := h.inside hfits place (by omega) (by omega)
      rw [hplace, Int.toNat_natCast]
      refine ⟨c, s, .inl ⟨rfl, rfl⟩, ?_⟩
      rwa [show s = place - ((d :: ds).length : Int) by omega]
    · split
      · rename_i hnot hnot' hbehind
        have hreads := h.behind hfits (-(((d :: ds).length : Int) + s)).toNat
        refine ⟨c, s, .inl ⟨rfl, rfl⟩, ?_⟩
        rwa [show -(((-(((d :: ds).length : Int) + s)).toNat + (d :: ds).length : Nat) : Int) = s by
          omega] at hreads
      · have hreads := h.scientific hfits (((d :: ds).length : Int) + s - 1)
          (by rw [Word.count, Nat.pow_eq]; omega) _ rfl
        refine ⟨c, s, .inl ⟨rfl, rfl⟩, ?_⟩
        rw [show ((d :: ds).length : Int) + s - 1 - ds.length = s by
          rw [List.length_cons]; omega] at hreads
        cases ds with
        | nil => exact hreads
        | cons d' ds => exact hreads

/-! ## Only sound numbers are read -/

/-- A number that is read is sound. -/
def YieldsSound (result : Except Fault (Number × List Char)) : Prop :=
  ∀ n rest, result = .ok (n, rest) → n.Sound

theorem yieldsSound_ok {n : Number} {rest : List Char} (h : n.Sound) :
    YieldsSound (.ok (n, rest)) := by
  intro m after heq
  cases heq
  exact h

theorem yieldsSound_error (fault : Fault) : YieldsSound (.error fault) := by
  intro m after heq
  cases heq

theorem finishFloat_of_some {negative : Bool} {digits : Nat} {exponent : Int} {y : Binary64}
    (h : Binary64.ofDecimal digits exponent = some y) (rest : List Char) :
    finishFloat negative digits exponent rest =
      .ok (.float (if negative then y.neg else y), rest) := by
  rw [finishFloat, h]

theorem float_sound {y : Binary64} (negative : Bool) (h : y.Finite) :
    (Number.float (if negative then y.neg else y)).Sound := by
  cases negative with
  | true => exact h.neg
  | false => exact h

variable {negative : Bool} {digits : Nat}

theorem finishFloat_sound (hdigits : digits < natBound) (exponent : Int) (s : List Char) :
    YieldsSound (finishFloat negative digits exponent s) := by
  cases h : Binary64.ofDecimal digits exponent with
  | none =>
    rw [finishFloat, h]
    exact yieldsSound_error _
  | some y =>
    rw [finishFloat_of_some h]
    exact yieldsSound_ok (float_sound negative (Binary64.ofDecimal_finite (Nat.le_of_lt hdigits) h))

theorem readExponentDigits_sound (hdigits : digits < natBound) (start : Int) (expNegative : Bool)
    (exp : Nat) (s : List Char) :
    YieldsSound (readExponentDigits negative digits start expNegative exp s) := by
  induction s generalizing exp with
  | nil => exact finishFloat_sound hdigits _ _
  | cons c s ih =>
    rw [readExponentDigits]
    split
    · exact finishFloat_sound hdigits _ _
    · split_ifs
      · exact ih _
      · exact yieldsSound_error _
      · exact yieldsSound_ok (Binary64.zero_finite negative)

theorem readExponent_sound (hdigits : digits < natBound) (start : Int) (s : List Char) :
    YieldsSound (readExponent negative digits start s) := by
  unfold readExponent
  simp only
  split
  · exact yieldsSound_error _
  · split
    · exact yieldsSound_error _
    · exact readExponentDigits_sound hdigits _ _ _ _

theorem readAfterFraction_sound (hdigits : digits < natBound) (exponent : Int) (s : List Char) :
    YieldsSound (readAfterFraction negative digits exponent s) := by
  unfold readAfterFraction
  split
  · exact readExponent_sound hdigits _ _
  · exact readExponent_sound hdigits _ _
  · exact finishFloat_sound hdigits _ _

theorem readFractionDigits_sound (hdigits : digits < natBound) (before : Int) (places : Nat)
    (s : List Char) : YieldsSound (readFractionDigits negative before digits places s) := by
  induction s generalizing digits places with
  | nil =>
    rw [readFractionDigits]
    split
    · exact yieldsSound_error _
    · exact readAfterFraction_sound hdigits _ _
  | cons c s ih =>
    rw [readFractionDigits]
    split
    · split
      · rename_i hfits
        exact ih hfits _
      · exact readAfterFraction_sound hdigits _ _
    · split
      · exact yieldsSound_error _
      · exact readAfterFraction_sound hdigits _ _

theorem readLongInteger_sound (hdigits : digits < natBound) (extra : Nat) (s : List Char) :
    YieldsSound (readLongInteger negative digits extra s) := by
  induction s generalizing extra with
  | nil => exact finishFloat_sound hdigits _ _
  | cons c s ih =>
    rw [readLongInteger]
    split_ifs
    · exact ih _
    · exact readFractionDigits_sound hdigits _ _ _
    · exact readExponent_sound hdigits _ _
    · exact finishFloat_sound hdigits _ _

theorem integerOf_sound (negative : Bool) (hdigits : digits < natBound) :
    (integerOf negative digits).Sound := by
  unfold integerOf
  split
  · constructor <;> omega
  · split
    · rename_i hbound
      rw [show Word.count 63 = 2 ^ 63 from rfl] at hbound
      constructor <;> omega
    · obtain ⟨x, hx, -⟩ := Binary64.ofNat_le_top (Nat.le_of_lt hdigits)
      rw [hx, Option.getD_some]
      exact (Binary64.ofNat_finite hx).neg

theorem readAfterInteger_sound (hdigits : digits < natBound) (s : List Char) :
    YieldsSound (readAfterInteger negative digits s) := by
  unfold readAfterInteger
  split
  · exact readFractionDigits_sound hdigits _ _ _
  · exact readExponent_sound hdigits _ _
  · exact readExponent_sound hdigits _ _
  · exact yieldsSound_ok (integerOf_sound negative hdigits)

theorem readIntegerDigits_sound (hdigits : digits < natBound) (s : List Char) :
    YieldsSound (readIntegerDigits negative digits s) := by
  induction s generalizing digits with
  | nil => exact yieldsSound_ok (integerOf_sound negative hdigits)
  | cons c s ih =>
    rw [readIntegerDigits]
    split
    · exact readAfterInteger_sound hdigits _
    · split
      · rename_i hfits
        exact ih hfits
      · exact readLongInteger_sound hdigits _ _

theorem digit?_lt {c : Char} {d : Nat} (h : digit? c = some d) : d < natBound := by
  have hbound : 58 < natBound := by decide +kernel
  unfold digit? at h
  split at h
  · rename_i hc
    have hle : c.toNat ≤ '9'.toNat := hc.2
    cases h
    have hnine : '9'.toNat = 57 := rfl
    omega
  · cases h

theorem readUnsigned_sound (negative : Bool) (s : List Char) :
    YieldsSound (readUnsigned negative s) := by
  have hzero : 0 < natBound := by decide +kernel
  unfold readUnsigned
  split
  · exact yieldsSound_error _
  · split
    · split
      · exact yieldsSound_error _
      · exact readAfterInteger_sound hzero _
    · exact readAfterInteger_sound hzero _
  · split
    · rename_i hdigit
      exact readIntegerDigits_sound (digit?_lt hdigit) _
    · exact yieldsSound_error _

theorem readNumber_sound (c : Char) (s : List Char) : YieldsSound (readNumber c s) := by
  unfold readNumber
  split
  · exact readUnsigned_sound true s
  · exact readUnsigned_sound false (c :: s)

/-! ## Sound numbers are read back -/

/-- What is read as a number starts with a digit. -/
theorem readUnsigned_head {negative : Bool} {s : List Char} {result : Number × List Char}
    (h : readUnsigned negative s = .ok result) : ∃ c cs, s = c :: cs ∧ c.isDigit = true := by
  cases s with
  | nil => cases h
  | cons c cs =>
    refine ⟨c, cs, rfl, ?_⟩
    cases hc : c.isDigit with
    | true => rfl
    | false =>
      rw [readUnsigned.eq_def] at h
      split at h
      · rename_i heq
        cases heq
      · rename_i heq
        cases heq
        cases hc
      · rename_i heq
        cases heq
        rw [digit?_eq_none hc] at h
        cases h

/-- A text of a number is read as a number, whatever closes it. -/
def ReadsNumber (text : List Char) (n : Number) : Prop :=
  ∃ c cs, text = c :: cs ∧ startsNumber c = true ∧
    ∀ rest, Closes rest → readNumber c (cs ++ rest) = .ok (n, rest)

theorem readsNumber_of_unsigned {negative : Bool} {body : List Char} {n : Number}
    (h : ∀ rest, Closes rest → readUnsigned negative (body ++ rest) = .ok (n, rest)) :
    ReadsNumber ((if negative then ['-'] else []) ++ body) n := by
  cases negative with
  | true => exact ⟨'-', body, rfl, by decide, h⟩
  | false =>
    obtain ⟨c, cs, heq, hc⟩ := readUnsigned_head (h [] closes_nil)
    rw [List.append_nil] at heq
    subst heq
    refine ⟨c, cs, rfl, by rw [startsNumber, hc, Bool.or_true], fun rest hrest => ?_⟩
    have hne : c ≠ '-' := by
      rintro rfl
      cases hc
    rw [readNumber, if_neg hne]
    exact h rest hrest

theorem intText_reads {k : Int} (h : (Number.int k).Sound) :
    ReadsNumber (intText k) (.int k) := by
  have hword : Word.count 63 = 2 ^ 63 := rfl
  have hnat : natBound = 2 ^ 64 := rfl
  obtain ⟨hlow, hhigh⟩ := h
  have hfits : k.natAbs < natBound := by omega
  have hreads : ReadsNumber ((if decide (k < 0) then ['-'] else []) ++ Nat.toDigits 10 k.natAbs)
      (.int k) := by
    apply readsNumber_of_unsigned
    intro rest hrest
    rw [readUnsigned_toDigits _ hrest.endsDigits hfits, readAfterInteger_end _ _ hrest.endsNumber]
    congr 2
    by_cases hneg : k < 0
    · rw [decide_eq_true hneg, integerOf, if_neg (by decide), if_pos (by omega)]
      congr 1
      omega
    · rw [decide_eq_false hneg, integerOf, if_pos (by decide)]
      congr 1
      omega
  unfold intText
  by_cases hneg : k < 0
  · rw [if_pos hneg]
    rwa [decide_eq_true hneg] at hreads
  · rw [if_neg hneg]
    rwa [decide_eq_false hneg] at hreads

/-- A positive decimal that stands for a float is read as a float. -/
theorem shown_readsAs {x : Binary64} {c : Nat} {s : Int} (h : x.Finite)
    (hshort : x.shortest = (c, s)) (hshown : x.Shown c s) :
    ∃ digits exponent y, ReadsAs (Binary64.writeDecimal (Nat.toDigits 10 c) s) digits exponent ∧
      digits < natBound ∧ Binary64.ofDecimal digits exponent = some y := by
  -- only a decimal without a fraction can be too large to be read
  have hread : 0 ≤ s → ∃ y, Binary64.ofDecimal c s = some y := by
    intro hs
    obtain ⟨k, rfl⟩ := Int.eq_ofNat_of_zero_le hs
    exact Binary64.shortest_read h hshort
  have hhigh : s ≤ 308 := by
    by_contra hgt
    obtain ⟨k, rfl⟩ := Int.eq_ofNat_of_zero_le (show 0 ≤ s by omega)
    exact hgt (by exact_mod_cast hshown.exponent_le h)
  have hsmall : 10 ^ 18 < natBound := by decide +kernel
  have hdigits := hshown.digits_le
  obtain ⟨digits, exponent, has, hreads⟩ :=
    writeDecimal_readsAs hshown.digits_pos hdigits hshown.exponent_ge hhigh
  rcases has with ⟨rfl, rfl⟩ | ⟨hlt, hneg⟩
  · have hlt : digits < natBound := by omega
    by_cases hs : 0 ≤ exponent
    · obtain ⟨y, hy⟩ := hread hs
      exact ⟨_, _, y, hreads, hlt, hy⟩
    · obtain ⟨y, hy⟩ := Binary64.ofDecimal_of_neg (Nat.le_of_lt hlt) (Int.not_le.1 hs)
      exact ⟨_, _, y, hreads, hlt, hy⟩
  · obtain ⟨y, hy⟩ := Binary64.ofDecimal_of_neg (Nat.le_of_lt hlt) hneg
    exact ⟨_, _, y, hreads, hlt, hy⟩

theorem zero_readsAs : ∃ digits exponent y, ReadsAs ['0', '.', '0'] digits exponent ∧
    digits < natBound ∧ Binary64.ofDecimal digits exponent = some y := by
  obtain ⟨y, hy⟩ := Binary64.ofDecimal_of_neg (Nat.zero_le _) (show (-1 : Int) < 0 by decide)
  refine ⟨0, -1, y, ?_, by decide +kernel, hy⟩
  intro negative rest hrest
  have hread := readUnsigned_zero_point negative isDigit_zero (List.cons_ne_nil _ _)
    hrest.endsDigits (by decide +kernel)
  rwa [readAfterFraction_end negative _ _ hrest.endsNumber] at hread

theorem floatText_reads {x : Binary64} (h : x.Finite) :
    ∃ y : Binary64, y.Finite ∧ ReadsNumber x.text (.float y) := by
  obtain ⟨body, htext, digits, exponent, y, hreads, hlt, hy⟩ :
      ∃ body, x.text = (if x.negative then ['-'] else []) ++ body ∧
        ∃ digits exponent y, ReadsAs body digits exponent ∧ digits < natBound ∧
          Binary64.ofDecimal digits exponent = some y := by
    unfold Binary64.text
    simp only
    split
    · exact ⟨_, rfl, zero_readsAs⟩
    · cases hshort : x.shortest with | mk c s
      rcases Binary64.shortest_shown h hshort with ⟨rfl, rfl⟩ | hshown
      · exact ⟨_, rfl, zero_readsAs⟩
      · exact ⟨_, rfl, shown_readsAs h hshort hshown⟩
  refine ⟨if x.negative then y.neg else y, ?_, ?_⟩
  · exact float_sound x.negative (Binary64.ofDecimal_finite (Nat.le_of_lt hlt) hy)
  · rw [htext]
    apply readsNumber_of_unsigned
    intro rest hrest
    rw [hreads x.negative rest hrest, finishFloat_of_some hy]

/-- **The text of a sound number is read**, as a sound number of the same kind, and
an integer as itself. -/
theorem numberText_reads {n : Number} (h : n.Sound) :
    ∃ m : Number, m.Sound ∧ (∀ k, n = .int k → m = n) ∧ ReadsNumber n.text m := by
  cases n with
  | int k => exact ⟨.int k, h, fun _ _ => rfl, intText_reads h⟩
  | float x =>
    obtain ⟨y, hy, hreads⟩ := floatText_reads h
    refine ⟨.float y, hy, ?_, hreads⟩
    intro k hk
    cases hk

end Json
end LaneBus
