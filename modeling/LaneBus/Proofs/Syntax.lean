import LaneBus.Proofs.Values

/-! # The grammar of JSON

A text is a JSON value by the rules of the format alone, without any reader: a name, a number,
a string, or a list or object of values of any depth, with blanks between tokens
(`ValueForm`).  The rules for strings allow every escape by number, so they leave open what
half a surrogate pair stands for; a key denotes characters only where every half has its other
half (`Denotes`).

Strings settle: one that denotes characters is read as these (`Denotes.reads`), and one that
does not is refused (`StringForm.settles`).
-/
namespace LaneBus
namespace Json

/-! ## Strings -/

/-- **The text of a string** from its opening quote on, up to the closing one. -/
inductive StringForm : List Char → Prop where
  | close : StringForm ['"']
  | plain {c : Char} {s : List Char} (hquote : c ≠ '"') (hbackslash : c ≠ '\\')
    (hcontrol : 32 ≤ c.toNat) (h : StringForm s) : StringForm (c :: s)
  | short {c d : Char} {s : List Char} (hc : shortEscape? c = some d) (h : StringForm s) :
    StringForm ('\\' :: c :: s)
  | unit {a b c d : Char} {n : Nat} {s : List Char} (hn : hexFour? [a, b, c, d] = some (n, []))
    (h : StringForm s) : StringForm ('\\' :: 'u' :: a :: b :: c :: d :: s)

/-- A code unit is the first half of a surrogate pair. -/
def IsHigh (n : Nat) : Prop := 0xd800 ≤ n ∧ n ≤ 0xdbff

/-- A code unit is the second half of a surrogate pair. -/
def IsLow (n : Nat) : Prop := 0xdc00 ≤ n ∧ n ≤ 0xdfff

instance (n : Nat) : Decidable (IsHigh n) := inferInstanceAs (Decidable (_ ∧ _))

instance (n : Nat) : Decidable (IsLow n) := inferInstanceAs (Decidable (_ ∧ _))

/-- The character of a surrogate pair. -/
def pairChar (n m : Nat) : Char := Char.ofNat (0x10000 + (n - 0xd800) * 0x400 + (m - 0xdc00))

/-- **A string denotes characters**: plain ones stand for themselves, and no escape is half a
surrogate pair. -/
inductive Denotes : List Char → List Char → Prop where
  | close : Denotes ['"'] []
  | plain {c : Char} {s cs : List Char} (hquote : c ≠ '"') (hbackslash : c ≠ '\\')
    (hcontrol : 32 ≤ c.toNat) (h : Denotes s cs) : Denotes (c :: s) (c :: cs)
  | short {c d : Char} {s cs : List Char} (hc : shortEscape? c = some d) (h : Denotes s cs) :
    Denotes ('\\' :: c :: s) (d :: cs)
  | unit {a b c d : Char} {n : Nat} {s cs : List Char} (hn : hexFour? [a, b, c, d] = some (n, []))
    (hhigh : ¬IsHigh n) (hlow : ¬IsLow n) (h : Denotes s cs) :
    Denotes ('\\' :: 'u' :: a :: b :: c :: d :: s) (Char.ofNat n :: cs)
  | pair {a b c d a' b' c' d' : Char} {n m : Nat} {s cs : List Char}
    (hn : hexFour? [a, b, c, d] = some (n, [])) (hhigh : IsHigh n)
    (hm : hexFour? [a', b', c', d'] = some (m, [])) (hlow : IsLow m) (h : Denotes s cs) :
    Denotes ('\\' :: 'u' :: a :: b :: c :: d :: '\\' :: 'u' :: a' :: b' :: c' :: d' :: s)
      (pairChar n m :: cs)

theorem Denotes.form {s cs : List Char} (h : Denotes s cs) : StringForm s := by
  induction h with
  | close => exact .close
  | plain hquote hbackslash hcontrol h ih => exact .plain hquote hbackslash hcontrol ih
  | short hc h ih => exact .short hc ih
  | unit hn hhigh hlow h ih => exact .unit hn ih
  | pair hn hhigh hm hlow h ih => exact .unit hn (.unit hm ih)

/-- What is written for characters denotes them. -/
theorem Denotes.stringTail (l : List Char) : Denotes (Json.stringTail l) l := by
  induction l with
  | nil => exact .close
  | cons c l ih =>
    rw [Json.stringTail]
    unfold escapeChar
    split_ifs with h1 h2 h3 h4 h5 h6 h7 h8
    · subst h1; exact .short rfl ih
    · subst h2; exact .short rfl ih
    · subst h3; exact .short rfl ih
    · subst h4; exact .short rfl ih
    · subst h5; exact .short rfl ih
    · subst h6; exact .short rfl ih
    · subst h7; exact .short rfl ih
    · have hdigits : hexFour? (controlDigits c) = some (c.toNat, []) := by
        rw [← List.append_nil (controlDigits c)]
        exact hexFour?_controlDigits h8 []
      have hhigh : ¬IsHigh c.toNat := by rw [IsHigh]; omega
      have hlow : ¬IsLow c.toNat := by rw [IsLow]; omega
      have hunit := Denotes.unit hdigits hhigh hlow ih
      rw [Char.ofNat_toNat] at hunit
      exact hunit
    · exact .plain h1 h2 (Nat.le_of_not_lt h8) ih

/-! ### Escapes -/

section

variable {a b c d : Char} {n m : Nat}

theorem IsHigh.not_low (h : IsHigh n) : ¬(0xdc00 ≤ n ∧ n ≤ 0xdfff) := by
  rw [IsHigh] at h
  omega

theorem IsHigh.not_outside (h : IsHigh n) : ¬(n < 0xd800 ∨ 0xdbff < n) := by
  rw [IsHigh] at h
  omega

/-- Four digits are read for their number, whatever follows. -/
theorem readHexFour_append (hn : hexFour? [a, b, c, d] = some (n, [])) (rest : List Char) :
    readHexFour (a :: b :: c :: d :: rest) = .ok (n, rest) := by
  have hfour : hexFour? (a :: b :: c :: d :: rest) = some (n, rest) := by
    simp only [hexFour?, Option.bind_eq_bind, Option.bind_eq_some_iff, Option.some.injEq,
      Prod.mk.injEq, and_true] at hn ⊢
    exact hn
  rw [readHexFour, hfour]

theorem readEscape_short (hc : shortEscape? c = some d) (rest : List Char) :
    readEscape (c :: rest) = .ok (d, rest) := by
  rw [readEscape.eq_def]
  split
  · rename_i heq
    cases heq
  · rename_i heq
    cases heq
    cases hc
  · rename_i heq
    cases heq
    rw [hc]

theorem readEscape_unit (hn : hexFour? [a, b, c, d] = some (n, [])) (hhigh : ¬IsHigh n)
    (hlow : ¬IsLow n) (rest : List Char) :
    readEscape ('u' :: a :: b :: c :: d :: rest) = .ok (Char.ofNat n, rest) := by
  have hpair : n < 0xd800 ∨ 0xdbff < n := by
    rw [IsHigh] at hhigh
    omega
  have hunit : ¬(0xdc00 ≤ n ∧ n ≤ 0xdfff) := hlow
  rw [readEscape, readUnicodeEscape, readHexFour_append hn]
  dsimp only
  rw [if_neg hunit, if_pos hpair]

theorem readEscape_low (hn : hexFour? [a, b, c, d] = some (n, [])) (hlow : IsLow n)
    (rest : List Char) : ∃ fault, readEscape ('u' :: a :: b :: c :: d :: rest) = .error fault := by
  rw [readEscape, readUnicodeEscape, readHexFour_append hn]
  exact ⟨_, if_pos hlow⟩

/-- Behind the first half of a pair stands an escape by number, or nothing is read. -/
theorem readEscape_high (hn : hexFour? [a, b, c, d] = some (n, [])) (hhigh : IsHigh n)
    {rest : List Char} (hrest : ∀ low, rest ≠ '\\' :: 'u' :: low) :
    ∃ fault, readEscape ('u' :: a :: b :: c :: d :: rest) = .error fault := by
  rw [readEscape, readUnicodeEscape, readHexFour_append hn]
  dsimp only
  rw [if_neg hhigh.not_low, if_neg hhigh.not_outside]
  split
  · rename_i low
    exact absurd rfl (hrest low)
  all_goals exact ⟨_, rfl⟩

theorem readEscape_pair {a' b' c' d' : Char} (hn : hexFour? [a, b, c, d] = some (n, []))
    (hhigh : IsHigh n) (hm : hexFour? [a', b', c', d'] = some (m, [])) (rest : List Char) :
    readEscape ('u' :: a :: b :: c :: d :: '\\' :: 'u' :: a' :: b' :: c' :: d' :: rest) =
      if IsLow m then .ok (pairChar n m, rest) else .error (.here .loneSurrogate rest) := by
  rw [readEscape, readUnicodeEscape, readHexFour_append hn]
  dsimp only
  rw [if_neg hhigh.not_low, if_neg hhigh.not_outside]
  simp only [readHexFour_append hm]
  rfl

end

/-! ### Reading strings -/

section

variable {s cs : List Char} {c d : Char} {steps : Nat} {seen : List Char}

theorem readStringFrom_plain (hquote : c ≠ '"') (hbackslash : c ≠ '\\') (hcontrol : 32 ≤ c.toNat) :
    readStringFrom (steps + 1) seen (c :: s) = readStringFrom steps (c :: seen) s := by
  rw [readStringFrom, if_neg hquote, if_neg hbackslash, if_neg (Nat.not_lt.mpr hcontrol)]

theorem readStringFrom_escape {rest : List Char} (h : readEscape s = .ok (d, rest)) :
    readStringFrom (steps + 1) seen ('\\' :: s) = readStringFrom steps (d :: seen) rest := by
  rw [readStringFrom, if_neg (by decide), if_pos rfl, h]

theorem readStringFrom_refused (h : ∃ fault, readEscape s = .error fault) :
    ∃ fault, readStringFrom (steps + 1) seen ('\\' :: s) = .error fault := by
  obtain ⟨fault, hfault⟩ := h
  exact ⟨fault, by rw [readStringFrom, if_neg (by decide), if_pos rfl, hfault]⟩

theorem Denotes.readStringFrom (h : Denotes s cs) (hsteps : s.length < steps) (rest : List Char) :
    readStringFrom steps seen (s ++ rest) = .ok (String.ofList (seen.reverse ++ cs), rest) := by
  induction h generalizing steps seen with
  | close =>
    obtain ⟨steps, rfl⟩ := Nat.exists_eq_succ_of_ne_zero (Nat.ne_zero_of_lt hsteps)
    rw [List.append_nil]
    rfl
  | plain hquote hbackslash hcontrol h ih =>
    rw [List.length_cons] at hsteps
    obtain ⟨steps, rfl⟩ := Nat.exists_eq_succ_of_ne_zero (Nat.ne_zero_of_lt hsteps)
    rw [List.cons_append, readStringFrom_plain hquote hbackslash hcontrol, ih (by omega)]
    simp
  | short hc h ih =>
    simp only [List.length_cons] at hsteps
    obtain ⟨steps, rfl⟩ := Nat.exists_eq_succ_of_ne_zero (Nat.ne_zero_of_lt hsteps)
    rw [List.cons_append, List.cons_append, readStringFrom_escape (readEscape_short hc _),
      ih (by omega)]
    simp
  | unit hn hhigh hlow h ih =>
    simp only [List.length_cons] at hsteps
    obtain ⟨steps, rfl⟩ := Nat.exists_eq_succ_of_ne_zero (Nat.ne_zero_of_lt hsteps)
    simp only [List.cons_append]
    rw [readStringFrom_escape (readEscape_unit hn hhigh hlow _), ih (by omega)]
    simp
  | pair hn hhigh hm hlow h ih =>
    simp only [List.length_cons] at hsteps
    obtain ⟨steps, rfl⟩ := Nat.exists_eq_succ_of_ne_zero (Nat.ne_zero_of_lt hsteps)
    have hread (rest : List Char) := readEscape_pair hn hhigh hm rest
    simp only [if_pos hlow] at hread
    simp only [List.cons_append]
    rw [readStringFrom_escape (hread _), ih (by omega)]
    simp

/-- **A string that denotes characters is read as these.** -/
theorem Denotes.reads (h : Denotes s cs) : Reads readString s (String.ofList cs) := by
  intro rest _
  rw [readString, h.readStringFrom (by rw [List.length_append]; omega)]
  rfl

/-- The text of a string is refused, however many steps there are. -/
def RefusedString (s : List Char) : Prop :=
  ∀ steps seen rest, s.length < steps →
    ∃ fault, Json.readStringFrom steps seen (s ++ rest) = .error fault

theorem RefusedString.of_escape (h : ∀ rest, ∃ fault, readEscape (s ++ rest) = .error fault) :
    RefusedString ('\\' :: s) := by
  intro steps seen rest hsteps
  obtain ⟨steps, rfl⟩ := Nat.exists_eq_succ_of_ne_zero (Nat.ne_zero_of_lt hsteps)
  exact readStringFrom_refused (h rest)

theorem RefusedString.escaped {e s : List Char} (h : RefusedString s) {d : Char}
    (hread : ∀ rest, readEscape (e ++ rest) = .ok (d, rest)) :
    RefusedString ('\\' :: (e ++ s)) := by
  intro steps seen rest hsteps
  rw [List.length_cons, List.length_append] at hsteps
  obtain ⟨steps, rfl⟩ := Nat.exists_eq_succ_of_ne_zero (Nat.ne_zero_of_lt hsteps)
  rw [List.cons_append, List.append_assoc, readStringFrom_escape (hread _)]
  exact h _ _ _ (by omega)

/-- A string denotes characters or is refused.  What decides about the first half of a
surrogate pair is the escape behind it, so the induction is on the length. -/
theorem StringForm.denotes_or_refused (h : StringForm s) :
    (∃ cs, Denotes s cs) ∨ RefusedString s := by
  induction hlength : s.length using Nat.strongRecOn generalizing s with
  | ind length ih =>
    cases h with
    | close => exact .inl ⟨[], .close⟩
    | plain hquote hbackslash hcontrol h =>
      rename_i c s
      have hless : s.length < length := by
        rw [← hlength]
        exact Nat.lt_succ_self _
      obtain ⟨cs, hcs⟩ | hrefused := ih _ hless h rfl
      · exact .inl ⟨_, .plain hquote hbackslash hcontrol hcs⟩
      · refine .inr fun steps seen rest hsteps => ?_
        obtain ⟨steps, rfl⟩ := Nat.exists_eq_succ_of_ne_zero (Nat.ne_zero_of_lt hsteps)
        rw [List.cons_append, readStringFrom_plain hquote hbackslash hcontrol]
        exact hrefused _ _ _ (Nat.lt_of_succ_lt_succ hsteps)
    | short hc h =>
      rename_i c d s
      have hless : s.length < length := by
        rw [← hlength]
        simp only [List.length_cons]
        omega
      obtain ⟨cs, hcs⟩ | hrefused := ih _ hless h rfl
      · exact .inl ⟨_, .short hc hcs⟩
      · exact .inr (hrefused.escaped (e := [c]) fun rest => readEscape_short hc rest)
    | unit hn h =>
      rename_i a b c d n s
      by_cases hlow : IsLow n
      · exact .inr (.of_escape fun rest => readEscape_low hn hlow _)
      by_cases hhigh : IsHigh n
      · cases h with
        | close =>
          refine .inr (.of_escape fun rest => readEscape_high hn hhigh fun low heq => ?_)
          cases heq
        | plain hquote hbackslash hcontrol h =>
          refine .inr (.of_escape fun rest => readEscape_high hn hhigh fun low heq => ?_)
          exact hbackslash (List.cons.inj heq).1
        | short hc h =>
          refine .inr (.of_escape fun rest => readEscape_high hn hhigh fun low heq => ?_)
          rw [(List.cons.inj (List.cons.inj heq).2).1] at hc
          cases hc
        | unit hm h =>
          rename_i a' b' c' d' m s
          have hread (rest : List Char) := readEscape_pair hn hhigh hm rest
          by_cases hlow' : IsLow m
          · simp only [if_pos hlow'] at hread
            have hless : s.length < length := by
              rw [← hlength]
              simp only [List.length_cons]
              omega
            obtain ⟨cs, hcs⟩ | hrefused := ih _ hless h rfl
            · exact .inl ⟨_, .pair hn hhigh hm hlow' hcs⟩
            · exact .inr (hrefused.escaped
                (e := ['u', a, b, c, d, '\\', 'u', a', b', c', d']) hread)
          · simp only [if_neg hlow'] at hread
            exact .inr (.of_escape fun rest => ⟨_, hread _⟩)
      · have hless : s.length < length := by
          rw [← hlength]
          simp only [List.length_cons]
          omega
        obtain ⟨cs, hcs⟩ | hrefused := ih _ hless h rfl
        · exact .inl ⟨_, .unit hn hhigh hlow hcs⟩
        · exact .inr (hrefused.escaped (e := ['u', a, b, c, d])
            fun rest => readEscape_unit hn hhigh hlow rest)

/-- **Strings settle.** -/
theorem StringForm.settles (h : StringForm s) : Settles readString s := by
  obtain ⟨cs, hcs⟩ | hrefused := h.denotes_or_refused
  · exact .reads _ hcs.reads
  · refine .refuses fun rest _ => ?_
    exact hrefused _ [] rest (by rw [List.length_append]; omega)

end

/-! ## Numbers -/

/-- **The text of a number** without its sign: no zero in front of other digits, and digits
behind a point. -/
inductive UnsignedForm : List Char → Prop where
  | whole {c : Char} {ds t : List Char} (hds : AllDigits (c :: ds)) (hzero : c = '0' → ds = [])
    (h : ExponentForm t) : UnsignedForm (c :: (ds ++ t))
  | point {c d : Char} {ds fs t : List Char} (hds : AllDigits (c :: ds))
    (hzero : c = '0' → ds = []) (hfs : AllDigits (d :: fs)) (h : ExponentForm t) :
    UnsignedForm (c :: (ds ++ '.' :: d :: (fs ++ t)))

theorem UnsignedForm.start {t : List Char} (h : UnsignedForm t) :
    ∃ c cs, t = c :: cs ∧ c.isDigit = true := by
  cases h with
  | whole hds => exact ⟨_, _, rfl, hds _ List.mem_cons_self⟩
  | point hds => exact ⟨_, _, rfl, hds _ List.mem_cons_self⟩

theorem UnsignedForm.numberForm {t : List Char} (h : UnsignedForm t) : NumberForm t := by
  cases h with
  | whole hds hzero h => exact .intro hds (.none h)
  | point hds hzero hfs h => exact .intro hds (.some hfs h)

/-! ## Lists and objects -/

/-- What follows an element: the others, or the closing bracket. -/
def moreText (close : Char) : List (List Char) → List Char
  | [] => [close]
  | x :: xs => ',' :: (x ++ moreText close xs)

/-- Some elements and the closing bracket, at the start or after an element. -/
def elementsText (close : Char) : (first : Bool) → List (List Char) → List Char
  | true, x :: xs => x ++ moreText close xs
  | _, xs => moreText close xs

theorem elementsText_nil (close : Char) (first : Bool) : elementsText close first [] = [close] := by
  cases first <;> rfl

theorem elementsText_false (close : Char) (es : List (List Char)) :
    elementsText close false es = moreText close es := by
  cases es <;> rfl

/-- No number goes on behind an element. -/
theorem moreText_endsNumber {close : Char} (hclose : close = ']' ∨ close = '}')
    (es : List (List Char)) (rest : List Char) : EndsNumber (moreText close es ++ rest) := by
  cases es with
  | nil => rcases hclose with rfl | rfl <;> exact endsNumber_cons _ (by decide)
  | cons e es => exact endsNumber_cons _ (by decide)

/-- The text of a value between blanks. -/
structure Item where
  before : Gap
  text : List Char
  after : Gap

/-- The text of a key from its opening quote on, and that of a value. -/
structure RawMember where
  before : Gap
  key : List Char
  colon : Gap
  value : Item

/-- An item with its blanks. -/
def Item.chars (x : Item) : List Char := x.before.chars ++ (x.text ++ x.after.chars)

/-- A member with its blanks. -/
def RawMember.chars (m : RawMember) : List Char :=
  m.before.chars ++ '"' :: (m.key ++ (m.colon.chars ++ ':' :: m.value.chars))

theorem Item.chars_append (x : Item) (rest : List Char) :
    x.chars ++ rest = x.before.chars ++ (x.text ++ (x.after.chars ++ rest)) := by
  rw [Item.chars, List.append_assoc, List.append_assoc]

theorem RawMember.chars_append (m : RawMember) (rest : List Char) : m.chars ++ rest =
    m.before.chars ++ '"' :: (m.key ++ (m.colon.chars ++ ':' :: (m.value.chars ++ rest))) := by
  simp [RawMember.chars]

/-! ## Values -/

/-- **The text of a value.** -/
inductive ValueForm : List Char → Prop where
  | nullName : ValueForm "null".toList
  | trueName : ValueForm "true".toList
  | falseName : ValueForm "false".toList
  | number {body : List Char} (h : UnsignedForm body) : ValueForm body
  | negative {body : List Char} (h : UnsignedForm body) : ValueForm ('-' :: body)
  | string {s : List Char} (h : StringForm s) : ValueForm ('"' :: s)
  | list (gap : Gap) (items : List Item) (h : ∀ x ∈ items, ValueForm x.text) :
    ValueForm ('[' :: (gap.chars ++ elementsText ']' true (items.map Item.chars)))
  | object (gap : Gap) (members : List RawMember) (hkeys : ∀ m ∈ members, StringForm m.key)
    (h : ∀ m ∈ members, ValueForm m.value.text) :
    ValueForm ('{' :: (gap.chars ++ elementsText '}' true (members.map RawMember.chars)))

/-- A value of the grammar starts as one. -/
theorem ValueForm.start {v : List Char} (h : ValueForm v) :
    ∃ c cs, v = c :: cs ∧ StartsValue c := by
  cases h with
  | nullName => exact ⟨'n', _, rfl, by decide, by decide⟩
  | trueName => exact ⟨'t', _, rfl, by decide, by decide⟩
  | falseName => exact ⟨'f', _, rfl, by decide, by decide⟩
  | number h =>
    obtain ⟨c, cs, hbody, hc⟩ := h.start
    exact ⟨c, cs, hbody, startsNumber_startsValue (by rw [startsNumber, hc, Bool.or_true])⟩
  | negative h => exact ⟨'-', _, rfl, by decide, by decide⟩
  | string h => exact ⟨'"', _, rfl, by decide, by decide⟩
  | list gap items h => exact ⟨'[', _, rfl, by decide, by decide⟩
  | object gap members hkeys h => exact ⟨'{', _, rfl, by decide, by decide⟩

/-- What starts with a quote is a string. -/
theorem ValueForm.of_quote {s : List Char} (h : ValueForm ('"' :: s)) : StringForm s := by
  cases h with
  | string h => exact h
  | number h =>
    obtain ⟨c, cs, heq, hc⟩ := h.start
    cases heq
    cases hc

/-- What starts with an `n` is null. -/
theorem ValueForm.of_n {s : List Char} (h : ValueForm ('n' :: s)) : s = "ull".toList := by
  cases h with
  | nullName => rfl
  | number h =>
    obtain ⟨c, cs, heq, hc⟩ := h.start
    cases heq
    cases hc

/-- What starts with a bracket is a list. -/
theorem ValueForm.of_bracket {s : List Char} (h : ValueForm ('[' :: s)) :
    ∃ (gap : Gap) (items : List Item), (∀ x ∈ items, ValueForm x.text) ∧
      s = gap.chars ++ elementsText ']' true (items.map Item.chars) := by
  cases h with
  | list gap items h => exact ⟨gap, items, h, rfl⟩
  | number h =>
    obtain ⟨c, cs, heq, hc⟩ := h.start
    cases heq
    cases hc

/-- What starts with a brace is an object. -/
theorem ValueForm.of_brace {s : List Char} (h : ValueForm ('{' :: s)) :
    ∃ (gap : Gap) (ms : List RawMember), (∀ m ∈ ms, StringForm m.key) ∧
      (∀ m ∈ ms, ValueForm m.value.text) ∧
      s = gap.chars ++ elementsText '}' true (ms.map RawMember.chars) := by
  cases h with
  | object gap ms hkeys h => exact ⟨gap, ms, hkeys, h, rfl⟩
  | number h =>
    obtain ⟨c, cs, heq, hc⟩ := h.start
    cases heq
    cases hc

end Json
end LaneBus
