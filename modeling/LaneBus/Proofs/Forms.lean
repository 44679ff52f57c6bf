import LaneBus.Proofs.Numbers
import LaneBus.Proofs.Settling

/-! # Where numbers end

The text of a number is made of digits, perhaps with a sign, a fraction or an exponent, and
so is what is written for one (`Number.text_form`).  However many digits there are and
whatever number they stand for, it is read as one number or refused, whatever follows
(`readUnsigned_settles`).  So a reader that accepts the text reads all of it, and nothing of
what closes it (`numberText_ends`).  Unlike reading back, this does not depend on the number
being sound.
-/
namespace LaneBus
namespace Json

/-- What is read, if anything is, leaves `rest`. -/
def EndsAt {α : Type} (rest : List Char) (result : Except Fault (α × List Char)) : Prop :=
  ∀ x after, result = .ok (x, after) → after = rest

section

variable {α β : Type} {rest : List Char}

theorem endsAt_ok (x : α) (rest : List Char) : EndsAt rest (.ok (x, rest)) := by
  intro y after h
  cases h
  rfl

theorem endsAt_error (fault : Fault) (rest : List Char) :
    EndsAt rest (.error fault : Except Fault (α × List Char)) := by
  intro y after h
  cases h

theorem EndsAt.mapRead {result : Except Fault (α × List Char)} (h : EndsAt rest result)
    (f : α → β) : EndsAt rest (mapRead f result) := by
  cases result with
  | error fault => exact endsAt_error fault rest
  | ok read =>
    obtain ⟨x, after⟩ := read
    rw [h x after rfl]
    exact endsAt_ok (f x) rest

end

/-! ## The form of a number -/

/-- A run of digits. -/
def AllDigits (ds : List Char) : Prop := ∀ c ∈ ds, c.isDigit = true

theorem AllDigits.append {ds ds' : List Char} (h : AllDigits ds) (h' : AllDigits ds') :
    AllDigits (ds ++ ds') := by
  intro c hc
  rcases List.mem_append.mp hc with hc | hc
  · exact h c hc
  · exact h' c hc

theorem AllDigits.of_sublist {ds ds' : List Char} (h : AllDigits ds) (hs : ds'.Sublist ds) :
    AllDigits ds' := fun c hc => h c (hs.subset hc)

theorem allDigits_toDigits (n : Nat) : AllDigits (Nat.toDigits 10 n) :=
  fun _ hc => isDigit_toDigits hc

theorem allDigits_zeros (n : Nat) : AllDigits (List.replicate n '0') := by
  intro c hc
  rw [List.eq_of_mem_replicate hc]
  decide

/-- An exponent, or nothing. -/
inductive ExponentForm : List Char → Prop where
  | none : ExponentForm []
  | some {mark c : Char} {sign ds : List Char} (hmark : mark = 'e' ∨ mark = 'E')
    (hsign : sign = [] ∨ sign = ['+'] ∨ sign = ['-']) (hds : AllDigits (c :: ds)) :
    ExponentForm (mark :: (sign ++ c :: ds))

/-- A fraction or nothing, and what may follow it. -/
inductive FractionForm : List Char → Prop where
  | none {t : List Char} (h : ExponentForm t) : FractionForm t
  | some {ds t : List Char} (hds : AllDigits ds) (h : ExponentForm t) :
    FractionForm ('.' :: (ds ++ t))

/-- A number without its sign. -/
inductive NumberForm : List Char → Prop where
  | intro {c : Char} {ds t : List Char} (hds : AllDigits (c :: ds)) (h : FractionForm t) :
    NumberForm (c :: (ds ++ t))

section

variable {t rest : List Char}

theorem ExponentForm.endsDigits (h : ExponentForm t) (hrest : EndsNumber rest) :
    EndsDigits (t ++ rest) := by
  cases h with
  | none => exact hrest.endsDigits
  | some hmark => rcases hmark with rfl | rfl <;> exact endsDigits_cons _ (by decide)

theorem FractionForm.endsDigits (h : FractionForm t) (hrest : EndsNumber rest) :
    EndsDigits (t ++ rest) := by
  cases h with
  | none h => exact h.endsDigits hrest
  | some hds h => exact endsDigits_cons _ (by decide)

end

theorem exponentForm_text (power : Int) : ExponentForm ('e' :: exponentText power) := by
  have hdigits := allDigits_toDigits power.natAbs
  have hsign : (if power < 0 then ['-'] else ['+']) = [] ∨
      (if power < 0 then ['-'] else ['+']) = ['+'] ∨
      (if power < 0 then ['-'] else ['+']) = ['-'] := by
    split_ifs <;> simp
  cases hds : Nat.toDigits 10 power.natAbs with
  | nil => exact absurd hds Nat.toDigits_ne_nil
  | cons c ds =>
    rw [hds] at hdigits
    rw [exponentText, hds]
    exact .some (.inl rfl) hsign hdigits

theorem numberForm_toDigits (n : Nat) : NumberForm (Nat.toDigits 10 n) := by
  have hdigits := allDigits_toDigits n
  cases hds : Nat.toDigits 10 n with
  | nil => exact absurd hds Nat.toDigits_ne_nil
  | cons c ds =>
    rw [hds] at hdigits
    have hform := NumberForm.intro hdigits (.none .none)
    rwa [List.append_nil] at hform

theorem numberForm_writeDecimal {c : Char} {ds : List Char} (hds : AllDigits (c :: ds)) (s : Int) :
    NumberForm (Binary64.writeDecimal (c :: ds) s) := by
  have htail : AllDigits ds := hds.of_sublist (List.sublist_cons_self c ds)
  unfold Binary64.writeDecimal
  simp only
  -- as a whole number, with a point inside, with a point in front, or scientific
  split
  · have hwhole : AllDigits (c :: (ds ++ List.replicate s.toNat '0')) :=
      hds.append (allDigits_zeros s.toNat)
    have hform := NumberForm.intro hwhole (.some (allDigits_zeros 1) .none)
    simpa using hform
  · split
    · obtain ⟨place, hplace⟩ : ∃ place : Nat, (((c :: ds).length : Int) + s).toNat = place + 1 :=
        ⟨(((c :: ds).length : Int) + s).toNat - 1, by omega⟩
      have hbefore : AllDigits (c :: ds.take place) :=
        hds.of_sublist ((List.take_sublist place ds).cons_cons c)
      have hform := NumberForm.intro hbefore
        (.some (htail.of_sublist (List.drop_sublist place ds)) .none)
      rw [hplace]
      simpa using hform
    · split
      · have hzeros := allDigits_zeros (-(((c :: ds).length : Int) + s)).toNat
        have hform := NumberForm.intro (allDigits_zeros 1) (.some (hzeros.append hds) .none)
        simpa using hform
      · have hexponent := exponentForm_text (((c :: ds).length : Int) + s - 1)
        have hfirst : AllDigits [c] := hds.of_sublist (List.sublist_append_left [c] ds)
        cases ds with
        | nil => exact NumberForm.intro hfirst (.none hexponent)
        | cons d ds =>
          have hform := NumberForm.intro hfirst (.some htail hexponent)
          exact hform

/-- The text of a number is its sign and its form. -/
theorem Number.text_form (n : Number) : ∃ negative body, NumberForm body ∧
    n.text = (if negative = true then ['-'] else []) ++ body := by
  cases n with
  | int n =>
    refine ⟨decide (n < 0), _, numberForm_toDigits n.natAbs, ?_⟩
    change intText n = _
    unfold intText
    by_cases hneg : n < 0
    · simp [hneg]
    · simp [hneg]
  | float x =>
    refine ⟨x.negative, ?_⟩
    change ∃ body, NumberForm body ∧ x.text = _
    unfold Binary64.text
    simp only
    split
    · exact ⟨_, NumberForm.intro (allDigits_zeros 1) (.some (allDigits_zeros 1) .none), rfl⟩
    · rename_i hzero
      have hdigits := allDigits_toDigits x.shortest.1
      cases hds : Nat.toDigits 10 x.shortest.1 with
      | nil => exact absurd hds Nat.toDigits_ne_nil
      | cons c ds =>
        rw [hds] at hdigits
        exact ⟨_, numberForm_writeDecimal hdigits x.shortest.2, rfl⟩

/-! ## Reading a form -/

section

variable (negative : Bool) {ds t rest : List Char}

theorem skipDigits_append (hds : AllDigits ds) (hrest : EndsDigits rest) :
    skipDigits (ds ++ rest) = rest := by
  induction ds with
  | nil =>
    cases rest with
    | nil => rfl
    | cons c rest => exact List.dropWhile_cons_of_neg (by rw [hrest c rfl]; decide)
  | cons c ds ih =>
    rw [List.cons_append, skipDigits, List.dropWhile_cons_of_pos (hds c List.mem_cons_self)]
    exact ih fun d hd => hds d (List.mem_cons_of_mem c hd)

theorem finishFloat_settles (digits : Nat) (exponent : Int) :
    Settles (finishFloat negative digits exponent) [] := by
  cases h : Binary64.ofDecimal digits exponent with
  | none => exact .refuses fun rest _ => ⟨_, by rw [List.nil_append, finishFloat, h]⟩
  | some x => exact .reads _ fun rest _ => by rw [List.nil_append, finishFloat, h]

theorem readExponentDigits_settles (digits : Nat) (start : Int) (expNegative : Bool) (exp : Nat)
    (hds : AllDigits ds) :
    Settles (readExponentDigits negative digits start expNegative exp) ds := by
  induction ds generalizing exp with
  | nil =>
    exact (finishFloat_settles negative _ _).congr fun rest hrest =>
      readExponentDigits_end _ _ _ _ _ hrest.endsDigits
  | cons c ds ih =>
    have htail : AllDigits ds := fun d hd => hds d (List.mem_cons_of_mem c hd)
    obtain ⟨d, hfirst⟩ : ∃ d, digit? c = some d := ⟨_, digit?_of_isDigit (hds c List.mem_cons_self)⟩
    -- the exponent still fits, makes the number too large, or makes it zero
    by_cases hfits : exp * 10 + d < Word.count 31
    · refine (ih (exp * 10 + d) htail).congr fun rest _ => ?_
      rw [List.cons_append, readExponentDigits, hfirst]
      exact if_pos hfits
    · by_cases hlarge : digits ≠ 0 ∧ !expNegative
      · refine .refuses fun rest _ => ⟨.here .numberOutOfRange (ds ++ rest), ?_⟩
        rw [List.cons_append, readExponentDigits, hfirst]
        dsimp only
        rw [if_neg hfits, if_pos hlarge]
      · refine .reads (.float (Binary64.zero negative)) fun rest hrest => ?_
        rw [List.cons_append, readExponentDigits, hfirst]
        dsimp only
        rw [if_neg hfits, if_neg hlarge, skipDigits_append htail hrest.endsDigits]

theorem readExponent_settles (digits : Nat) (start : Int) {c : Char} {sign : List Char}
    (hsign : sign = [] ∨ sign = ['+'] ∨ sign = ['-']) (hds : AllDigits (c :: ds)) :
    Settles (readExponent negative digits start) (sign ++ c :: ds) := by
  have hc := hds c List.mem_cons_self
  have hfirst := digit?_of_isDigit hc
  have htail : AllDigits ds := fun d hd => hds d (List.mem_cons_of_mem c hd)
  have hdigits (expNegative : Bool) := readExponentDigits_settles negative digits start expNegative
    (c.toNat - '0'.toNat) htail
  rcases hsign with rfl | rfl | rfl
  · refine (hdigits false).congr fun rest _ => ?_
    have hplus : c ≠ '+' := by rintro rfl; cases hc
    have hminus : c ≠ '-' := by rintro rfl; cases hc
    simp [readExponent, hplus, hminus, hfirst]
  · exact (hdigits false).congr fun rest _ => by simp [readExponent, hfirst]
  · exact (hdigits true).congr fun rest _ => by simp [readExponent, hfirst]

theorem readAfterFraction_settles (digits : Nat) (exponent : Int)
    (h : ExponentForm t) : Settles (readAfterFraction negative digits exponent) t := by
  cases h with
  | none =>
    exact (finishFloat_settles negative _ _).congr fun rest hrest =>
      readAfterFraction_end negative digits exponent hrest
  | some hmark hsign hds =>
    refine (readExponent_settles negative digits exponent hsign hds).congr fun rest _ => ?_
    rcases hmark with rfl | rfl <;> rfl

theorem readFractionDigits_settles (before : Int) (digits places : Nat) (hds : AllDigits ds)
    (h : ExponentForm t) :
    Settles (readFractionDigits negative before digits places) (ds ++ t) := by
  induction ds generalizing digits places with
  | nil =>
    rw [List.nil_append]
    by_cases hplaces : places = 0
    · -- a point without digits behind it
      refine .refuses fun rest hrest => ?_
      have hends := h.endsDigits hrest
      cases htext : t ++ rest with
      | nil => exact ⟨_, by rw [readFractionDigits, if_pos hplaces]⟩
      | cons c cs =>
        rw [htext] at hends
        rw [readFractionDigits, digit?_eq_none (hends c rfl)]
        exact ⟨_, if_pos hplaces⟩
    · exact (readAfterFraction_settles negative digits _ h).congr fun rest hrest =>
        readFractionDigits_end _ _ _ (Nat.pos_of_ne_zero hplaces) (h.endsDigits hrest)
  | cons c ds ih =>
    have htail : AllDigits ds := fun d hd => hds d (List.mem_cons_of_mem c hd)
    obtain ⟨d, hfirst⟩ : ∃ d, digit? c = some d := ⟨_, digit?_of_isDigit (hds c List.mem_cons_self)⟩
    by_cases hfits : digits * 10 + d < natBound
    · refine (ih (digits * 10 + d) (places + 1) htail).congr fun rest _ => ?_
      rw [List.cons_append, List.cons_append, readFractionDigits, hfirst]
      exact if_pos hfits
    · refine (readAfterFraction_settles negative digits (before - places) h).congr
        fun rest hrest => ?_
      rw [List.cons_append, List.cons_append, readFractionDigits, hfirst]
      dsimp only
      rw [if_neg hfits, List.append_assoc, skipDigits_append htail (h.endsDigits hrest)]

theorem readAfterInteger_settles (digits : Nat) (h : FractionForm t) :
    Settles (readAfterInteger negative digits) t := by
  cases h with
  | none h =>
    cases h with
    | none => exact .reads _ fun rest hrest => readAfterInteger_end negative digits hrest
    | some hmark hsign hds =>
      refine (readExponent_settles negative digits 0 hsign hds).congr fun rest _ => ?_
      rcases hmark with rfl | rfl <;> rfl
  | some hds h =>
    exact (readFractionDigits_settles negative 0 digits 0 hds h).congr fun rest _ => rfl

theorem readLongInteger_settles (digits extra : Nat) (hds : AllDigits ds) (h : FractionForm t) :
    Settles (readLongInteger negative digits extra) (ds ++ t) := by
  induction ds generalizing extra with
  | nil =>
    cases h with
    | none h =>
      cases h with
      | none =>
        refine (finishFloat_settles negative digits extra).congr fun rest hrest => ?_
        cases rest with
        | nil => rfl
        | cons c rest =>
          obtain ⟨hdigit, hpoint, he, hE⟩ := hrest c rfl
          simp [readLongInteger, hdigit, hpoint, he, hE]
      | some hmark hsign hds =>
        refine (readExponent_settles negative digits extra hsign hds).congr fun rest _ => ?_
        rcases hmark with rfl | rfl <;> rfl
    | some hds h =>
      exact (readFractionDigits_settles negative extra digits 0 hds h).congr fun rest _ => rfl
  | cons c ds ih =>
    refine (ih (extra + 1) fun d hd => hds d (List.mem_cons_of_mem c hd)).congr fun rest _ => ?_
    rw [List.cons_append, List.cons_append, readLongInteger, if_pos (hds c List.mem_cons_self)]

theorem readIntegerDigits_settles (digits : Nat) (hds : AllDigits ds) (h : FractionForm t) :
    Settles (readIntegerDigits negative digits) (ds ++ t) := by
  induction ds generalizing digits with
  | nil =>
    exact (readAfterInteger_settles negative digits h).congr fun rest hrest =>
      readIntegerDigits_end negative digits (h.endsDigits hrest)
  | cons c ds ih =>
    have htail : AllDigits ds := fun d hd => hds d (List.mem_cons_of_mem c hd)
    obtain ⟨d, hfirst⟩ : ∃ d, digit? c = some d := ⟨_, digit?_of_isDigit (hds c List.mem_cons_self)⟩
    by_cases hfits : digits * 10 + d < natBound
    · refine (ih (digits * 10 + d) htail).congr fun rest _ => ?_
      rw [List.cons_append, List.cons_append, readIntegerDigits, hfirst]
      exact if_pos hfits
    · refine (readLongInteger_settles negative digits 1 htail h).congr fun rest _ => ?_
      rw [List.cons_append, List.cons_append, readIntegerDigits, hfirst]
      exact if_neg hfits

/-- **A number settles**: it is read as one number whatever follows, or refused. -/
theorem readUnsigned_settles {body : List Char} (h : NumberForm body) :
    Settles (readUnsigned negative) body := by
  obtain ⟨hds, h⟩ := h
  rename_i c ds t
  have htail : AllDigits ds := fun d hd => hds d (List.mem_cons_of_mem c hd)
  by_cases hzero : c = '0'
  · subst hzero
    cases ds with
    | nil =>
      exact (readAfterInteger_settles negative 0 h).congr fun rest hrest =>
        readUnsigned_zero negative (h.endsDigits hrest)
    | cons d ds =>
      -- a zero in front of other digits is refused
      refine .refuses fun rest _ => ⟨.peeked .invalidNumber (d :: ds ++ t ++ rest), ?_⟩
      exact if_pos (htail d List.mem_cons_self)
  · refine (readIntegerDigits_settles negative (c.toNat - '0'.toNat) htail h).congr fun rest _ => ?_
    have hfirst := digit?_of_isDigit (hds c List.mem_cons_self)
    simp [readUnsigned, hfirst]

theorem Settles.endsAt {α : Type} {R : Reader α} (h : Settles R t) (hrest : EndsNumber rest) :
    EndsAt rest (R (t ++ rest)) := by
  cases h with
  | reads x h =>
    rw [h rest hrest]
    exact endsAt_ok x rest
  | refuses h =>
    obtain ⟨fault, hfault⟩ := h rest hrest
    rw [hfault]
    exact endsAt_error fault rest

/-- **A reader that accepts the text of a number reads all of it.** -/
theorem numberText_ends (n : Number) : ∃ c cs, n.text = c :: cs ∧ startsNumber c = true ∧
    ∀ rest, Closes rest → EndsAt rest (readNumber c (cs ++ rest)) := by
  obtain ⟨negative, body, hform, htext⟩ := n.text_form
  rw [htext]
  cases negative with
  | true =>
    refine ⟨'-', body, rfl, by decide, fun rest hrest => ?_⟩
    exact (readUnsigned_settles true hform).endsAt hrest.endsNumber
  | false =>
    have hends : ∀ rest, Closes rest → EndsAt rest (readUnsigned false (body ++ rest)) :=
      fun rest hrest => (readUnsigned_settles false hform).endsAt hrest.endsNumber
    obtain ⟨hds, -⟩ := hform
    rename_i c ds t
    have hc := hds c List.mem_cons_self
    have hminus : c ≠ '-' := by
      rintro rfl
      cases hc
    refine ⟨c, ds ++ t, rfl, by rw [startsNumber, hc, Bool.or_true], fun rest hrest => ?_⟩
    rw [readNumber, if_neg hminus]
    exact hends rest hrest

end

end Json
end LaneBus
