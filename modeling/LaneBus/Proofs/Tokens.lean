import Mathlib.Tactic.SplitIfs
import LaneBus.Json.Decode

/-! # Reading back digits and strings

What is written for a value is followed by a comma, by a closing bracket or by
nothing (`Closes`), so a run of digits ends where its number does.  Digits are
read for the number they stand for, as long as it fits
(`readIntegerDigits_append` and its like), and the characters of a string come
back as they were, whatever was escaped (`readString_stringTail`).
-/
namespace LaneBus
namespace Json

/-- What may follow the text of a value. -/
def Closes (rest : List Char) : Prop := ∀ c ∈ rest.head?, c = ',' ∨ c = ']' ∨ c = '}'

/-- A text does not go on with a digit. -/
def EndsDigits (rest : List Char) : Prop := ∀ c ∈ rest.head?, c.isDigit = false

/-- A text does not go on with anything that may be part of a number. -/
def EndsNumber (rest : List Char) : Prop :=
  ∀ c ∈ rest.head?, c.isDigit = false ∧ c ≠ '.' ∧ c ≠ 'e' ∧ c ≠ 'E'

theorem closes_nil : Closes [] := by
  intro c hc
  cases hc

theorem closes_cons {c : Char} (rest : List Char) (h : c = ',' ∨ c = ']' ∨ c = '}') :
    Closes (c :: rest) := by
  intro d hd
  cases hd
  exact h

theorem endsDigits_cons {c : Char} (rest : List Char) (h : c.isDigit = false) :
    EndsDigits (c :: rest) := by
  intro d hd
  cases hd
  exact h

theorem endsNumber_nil : EndsNumber [] := by
  intro c hc
  cases hc

theorem endsNumber_cons {c : Char} (rest : List Char)
    (h : c.isDigit = false ∧ c ≠ '.' ∧ c ≠ 'e' ∧ c ≠ 'E') : EndsNumber (c :: rest) := by
  intro d hd
  cases hd
  exact h

theorem EndsNumber.endsDigits {rest : List Char} (h : EndsNumber rest) : EndsDigits rest :=
  fun c hc => (h c hc).1

theorem Closes.endsNumber {rest : List Char} (h : Closes rest) : EndsNumber rest := by
  intro c hc
  rcases h c hc with rfl | rfl | rfl <;> decide

theorem Closes.endsDigits {rest : List Char} (h : Closes rest) : EndsDigits rest :=
  h.endsNumber.endsDigits

/-! ## Digits -/

theorem isDigit_iff (c : Char) : c.isDigit = true ↔ '0' ≤ c ∧ c ≤ '9' := by
  unfold Char.isDigit
  rw [Bool.and_eq_true, decide_eq_true_iff, decide_eq_true_iff]
  exact Iff.rfl

theorem digit?_of_isDigit {c : Char} (h : c.isDigit = true) :
    digit? c = some (c.toNat - '0'.toNat) := if_pos ((isDigit_iff c).1 h)

theorem digit?_eq_none {c : Char} (h : c.isDigit = false) : digit? c = none := by
  refine if_neg fun hc => ?_
  rw [(isDigit_iff c).2 hc] at h
  cases h

/-- Digits only make a number larger. -/
theorem le_ofDigitChars (n : Nat) (ds : List Char) : n ≤ Nat.ofDigitChars 10 ds n := by
  induction ds generalizing n with
  | nil => exact Nat.le_of_eq Nat.ofDigitChars_nil.symm
  | cons c ds ih =>
    rw [Nat.ofDigitChars_cons]
    refine Nat.le_trans ?_ (ih _)
    omega

/-- The bound on collected digits holds for those collected so far. -/
theorem collected_lt {n bound : Nat} {c : Char} {ds : List Char}
    (h : Nat.ofDigitChars 10 (c :: ds) n < bound) : n * 10 + (c.toNat - '0'.toNat) < bound := by
  rw [Nat.ofDigitChars_cons, Nat.mul_comm] at h
  exact Nat.lt_of_le_of_lt (le_ofDigitChars _ ds) h

/-! A loop over digits ends where they do. -/

section

variable {rest : List Char}

theorem readIntegerDigits_end (negative : Bool) (n : Nat) (h : EndsDigits rest) :
    readIntegerDigits negative n rest = readAfterInteger negative n rest := by
  cases rest with
  | nil => rfl
  | cons c rest => rw [readIntegerDigits, digit?_eq_none (h c rfl)]

theorem readFractionDigits_end (negative : Bool) (before : Int) (n : Nat) {places : Nat}
    (hplaces : 0 < places) (h : EndsDigits rest) :
    readFractionDigits negative before n places rest =
      readAfterFraction negative n (before - places) rest := by
  cases rest with
  | nil => rw [readFractionDigits, if_neg (Nat.ne_of_gt hplaces)]
  | cons c rest =>
    rw [readFractionDigits, digit?_eq_none (h c rfl)]
    dsimp only
    rw [if_neg (Nat.ne_of_gt hplaces)]

theorem readExponentDigits_end (negative : Bool) (digits : Nat) (start : Int) (expNegative : Bool)
    (n : Nat) (h : EndsDigits rest) :
    readExponentDigits negative digits start expNegative n rest =
      finishFloat negative digits (if expNegative then start - n else start + n) rest := by
  cases rest with
  | nil => rfl
  | cons c rest => rw [readExponentDigits, digit?_eq_none (h c rfl)]

end

theorem readIntegerDigits_append (negative : Bool) {ds rest : List Char} {n : Nat}
    (hds : ∀ c ∈ ds, c.isDigit = true) (hrest : EndsDigits rest)
    (hn : Nat.ofDigitChars 10 ds n < natBound) :
    readIntegerDigits negative n (ds ++ rest) =
      readAfterInteger negative (Nat.ofDigitChars 10 ds n) rest := by
  induction ds generalizing n with
  | nil =>
    rw [List.nil_append, Nat.ofDigitChars_nil]
    exact readIntegerDigits_end negative n hrest
  | cons c ds ih =>
    have hlt := collected_lt hn
    rw [Nat.ofDigitChars_cons, Nat.mul_comm] at hn ⊢
    rw [List.cons_append, readIntegerDigits, digit?_of_isDigit (hds c List.mem_cons_self)]
    simp only
    rw [if_pos hlt]
    exact ih (fun d hd => hds d (List.mem_cons_of_mem c hd)) hn

theorem readFractionDigits_append (negative : Bool) (before : Int) {ds rest : List Char}
    {n places : Nat} (hds : ∀ c ∈ ds, c.isDigit = true) (hrest : EndsDigits rest)
    (hn : Nat.ofDigitChars 10 ds n < natBound) (hplaces : 0 < places + ds.length) :
    readFractionDigits negative before n places (ds ++ rest) =
      readAfterFraction negative (Nat.ofDigitChars 10 ds n)
        (before - (places + ds.length : Nat)) rest := by
  induction ds generalizing n places with
  | nil =>
    rw [List.length_nil, Nat.add_zero] at hplaces ⊢
    rw [List.nil_append, Nat.ofDigitChars_nil]
    exact readFractionDigits_end negative before n hplaces hrest
  | cons c ds ih =>
    have hlt := collected_lt hn
    have hlength : places + (c :: ds).length = places + 1 + ds.length := by
      rw [List.length_cons]
      omega
    rw [Nat.ofDigitChars_cons, Nat.mul_comm] at hn ⊢
    rw [List.cons_append, readFractionDigits, digit?_of_isDigit (hds c List.mem_cons_self)]
    simp only
    rw [if_pos hlt, hlength]
    exact ih (fun d hd => hds d (List.mem_cons_of_mem c hd)) hn (by omega)

theorem readExponentDigits_append (negative : Bool) (digits : Nat) (start : Int)
    (expNegative : Bool) {ds rest : List Char} {n : Nat} (hds : ∀ c ∈ ds, c.isDigit = true)
    (hrest : EndsDigits rest) (hn : Nat.ofDigitChars 10 ds n < Word.count 31) :
    readExponentDigits negative digits start expNegative n (ds ++ rest) =
      finishFloat negative digits (if expNegative then start - Nat.ofDigitChars 10 ds n
        else start + Nat.ofDigitChars 10 ds n) rest := by
  induction ds generalizing n with
  | nil =>
    rw [List.nil_append, Nat.ofDigitChars_nil]
    exact readExponentDigits_end negative digits start expNegative n hrest
  | cons c ds ih =>
    have hlt := collected_lt hn
    rw [Nat.ofDigitChars_cons, Nat.mul_comm] at hn ⊢
    rw [List.cons_append, readExponentDigits, digit?_of_isDigit (hds c List.mem_cons_self)]
    simp only
    rw [if_pos hlt]
    exact ih (fun d hd => hds d (List.mem_cons_of_mem c hd)) hn

/-! ## The digits of a number -/

theorem isDigit_toDigits {n : Nat} {c : Char} (h : c ∈ Nat.toDigits 10 n) : c.isDigit = true :=
  Nat.isDigit_of_mem_toDigits (by omega) (by omega) h

/-- The digits of a positive number start with another one than zero. -/
theorem toDigits_head {n : Nat} (h : 0 < n) :
    ∃ c cs, Nat.toDigits 10 n = c :: cs ∧ c ≠ '0' := by
  induction n using Nat.strongRecOn with
  | ind n ih =>
    by_cases hlt : n < 10
    · refine ⟨Nat.digitChar n, [], Nat.toDigits_of_lt_base hlt, ?_⟩
      have hcases : ∀ m < 10, 0 < m → Nat.digitChar m ≠ '0' := by decide
      exact hcases n hlt h
    · obtain ⟨c, cs, heq, hne⟩ := ih (n / 10) (by omega) (by omega)
      refine ⟨c, cs ++ [Nat.digitChar (n % 10)], ?_, hne⟩
      rw [Nat.toDigits_of_base_le (by omega) (by omega), heq, List.cons_append]

/-- Digits that do not start with a zero are read as an integer part. -/
theorem readUnsigned_digits (negative : Bool) {c : Char} {ds rest : List Char} (hc : c ≠ '0')
    (hds : ∀ d ∈ c :: ds, d.isDigit = true) (hrest : EndsDigits rest)
    (hn : Nat.ofDigitChars 10 (c :: ds) 0 < natBound) :
    readUnsigned negative (c :: ds ++ rest) =
      readAfterInteger negative (Nat.ofDigitChars 10 (c :: ds) 0) rest := by
  rw [Nat.ofDigitChars_cons, Nat.mul_zero, Nat.zero_add] at hn ⊢
  rw [List.cons_append, readUnsigned.eq_def]
  -- the text is not empty and does not start with a zero
  split
  · rename_i heq
    cases heq
  · rename_i heq
    cases heq
    exact absurd rfl hc
  · rename_i heq
    cases heq
    rw [digit?_of_isDigit (hds _ List.mem_cons_self)]
    simp only
    exact readIntegerDigits_append negative (fun d hd => hds d (List.mem_cons_of_mem _ hd)) hrest hn

theorem readUnsigned_zero (negative : Bool) {rest : List Char} (hrest : EndsDigits rest) :
    readUnsigned negative ('0' :: rest) = readAfterInteger negative 0 rest := by
  cases rest with
  | nil => rfl
  | cons c rest =>
    have hc := hrest c rfl
    rw [readUnsigned, hc]
    rfl

/-- The digits of a number that fits are read as an integer part of its value. -/
theorem readUnsigned_toDigits (negative : Bool) {n : Nat} {rest : List Char}
    (hrest : EndsDigits rest) (hn : n < natBound) :
    readUnsigned negative (Nat.toDigits 10 n ++ rest) = readAfterInteger negative n rest := by
  rcases Nat.eq_zero_or_pos n with rfl | hpos
  · rw [Nat.toDigits_zero]
    exact readUnsigned_zero negative hrest
  · have hvalue := Nat.ofDigitChars_ten_toDigits (n := n)
    have hdigits : ∀ d ∈ Nat.toDigits 10 n, d.isDigit = true := fun d hd => isDigit_toDigits hd
    obtain ⟨c, cs, heq, hne⟩ := toDigits_head hpos
    rw [heq] at hvalue hdigits ⊢
    have hread := readUnsigned_digits negative hne hdigits hrest (by rw [hvalue]; exact hn)
    rwa [hvalue] at hread

/-! ## Strings -/

theorem hexDigit?_digitChar : ∀ d < 16, hexDigit? (Nat.digitChar d) = some d := by decide

/-- The four digits of a control character are its number. -/
theorem hexFour?_controlDigits {c : Char} (h : c.toNat < 32) (s : List Char) :
    hexFour? (controlDigits c ++ s) = some (c.toNat, s) := by
  have hhigh := hexDigit?_digitChar (c.toNat / 16) (by omega)
  have hlow := hexDigit?_digitChar (c.toNat % 16) (by omega)
  have hzero : hexDigit? '0' = some 0 := by decide
  have hvalue : ((0 * 16 + 0) * 16 + c.toNat / 16) * 16 + c.toNat % 16 = c.toNat := by omega
  simp only [controlDigits, List.cons_append, List.nil_append, hexFour?, hzero, hhigh, hlow,
    Option.bind_eq_bind, Option.bind_some, hvalue]

/-- A control character comes back from its four hexadecimal digits. -/
theorem readEscape_controlDigits {c : Char} (h : c.toNat < 32) (s : List Char) :
    readEscape ('u' :: (controlDigits c ++ s)) = .ok (c, s) := by
  rw [readEscape, readUnicodeEscape, readHexFour, hexFour?_controlDigits h]
  simp only
  rw [if_neg (by omega), if_pos (by omega), Char.ofNat_toNat]

/-- A character comes back from its escape, or as itself. -/
theorem readStringFrom_escapeChar (steps : Nat) (seen : List Char) (c : Char) (s : List Char) :
    readStringFrom (steps + 1) seen (escapeChar c ++ s) = readStringFrom steps (c :: seen) s := by
  unfold escapeChar
  split_ifs with h1 h2 h3 h4 h5 h6 h7 h8
  · subst h1; rfl
  · subst h2; rfl
  · subst h3; rfl
  · subst h4; rfl
  · subst h5; rfl
  · subst h6; rfl
  · subst h7; rfl
  · rw [List.cons_append, List.cons_append, readStringFrom, if_neg (by decide), if_pos rfl,
      readEscape_controlDigits h8]
  · rw [List.cons_append, List.nil_append, readStringFrom, if_neg h1, if_neg h2, if_neg h8]

theorem readStringFrom_stringTail {steps : Nat} (seen l rest : List Char) (h : l.length < steps) :
    readStringFrom steps seen (stringTail l ++ rest) =
      .ok (String.ofList (seen.reverse ++ l), rest) := by
  induction l generalizing steps seen with
  | nil =>
    obtain ⟨steps, rfl⟩ := Nat.exists_eq_succ_of_ne_zero (Nat.ne_of_gt h)
    rw [stringTail, List.append_nil]
    rfl
  | cons c l ih =>
    rw [List.length_cons] at h
    obtain ⟨steps, rfl⟩ : ∃ n, steps = n + 1 := ⟨steps - 1, by omega⟩
    rw [stringTail, List.append_assoc, readStringFrom_escapeChar, ih _ (by omega),
      List.reverse_cons, List.append_assoc, List.singleton_append]

theorem length_lt_stringTail (l : List Char) : l.length < (stringTail l).length := by
  induction l with
  | nil => exact Nat.zero_lt_one
  | cons c l ih =>
    have hpos : 0 < (escapeChar c).length := by
      unfold escapeChar
      split_ifs <;> exact Nat.succ_pos _
    rw [stringTail, List.length_append, List.length_cons]
    omega

/-- **A string comes back as it was written.** -/
theorem readString_stringTail (s : String) (rest : List Char) :
    readString (stringTail s.toList ++ rest) = .ok (s, rest) := by
  have hlength := length_lt_stringTail s.toList
  unfold readString
  rw [readStringFrom_stringTail [] s.toList rest (by rw [List.length_append]; omega),
    List.reverse_nil, List.nil_append, String.ofList_toList]

end Json
end LaneBus
