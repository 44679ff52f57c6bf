import LaneBus.Proofs.Syntax

/-! # Values that are ignored

A value whose content does not matter is skipped.  Skipping keeps a stack of the brackets that
are open, and takes one step for each value inside.  Behind a value it goes on as the stack
says (`resume`), so what a step does with a value inside brackets is to skip it and to go on
behind it (`Skips`).  Elements in sequence take as many steps as all of them
(`skips_elements`), and so every value of the grammar is skipped, of any depth
(`ValueForm.skips`): it is all the same to the reader (`ValueForm.skipped`).
-/
namespace LaneBus
namespace Json

/-! ## Strings -/

section

variable {a b c d : Char} {s : List Char} {n steps : Nat}

theorem skipStringFrom_plain (hquote : c ≠ '"') (hbackslash : c ≠ '\\')
    (hcontrol : 32 ≤ c.toNat) :
    skipStringFrom (steps + 1) (c :: s) = skipStringFrom steps s := by
  rw [skipStringFrom.eq_def (steps + 1)]
  dsimp only
  rw [if_neg hquote, if_neg hbackslash, if_neg (Nat.not_lt.mpr hcontrol)]

theorem skipStringFrom_short (hc : shortEscape? c = some d) :
    skipStringFrom (steps + 1) ('\\' :: c :: s) = skipStringFrom steps s := by
  have hu : c = 'u' → False := by
    rintro rfl
    cases hc
  rw [skipStringFrom, if_neg (by decide), if_pos rfl, hc, Option.isSome_some, if_pos rfl]
  exact hu

theorem skipStringFrom_unit (hn : hexFour? [a, b, c, d] = some (n, [])) :
    skipStringFrom (steps + 1) ('\\' :: 'u' :: a :: b :: c :: d :: s) = skipStringFrom steps s := by
  rw [skipStringFrom, if_neg (by decide), if_pos rfl, readHexFour_append hn]

theorem StringForm.skipStringFrom (h : StringForm s) (hsteps : s.length < steps)
    (rest : List Char) : Json.skipStringFrom steps (s ++ rest) = .ok ((), rest) := by
  induction h generalizing steps with
  | close =>
    obtain ⟨steps, rfl⟩ := Nat.exists_eq_succ_of_ne_zero (Nat.ne_zero_of_lt hsteps)
    rfl
  | plain hquote hbackslash hcontrol h ih =>
    rw [List.length_cons] at hsteps
    obtain ⟨steps, rfl⟩ := Nat.exists_eq_succ_of_ne_zero (Nat.ne_zero_of_lt hsteps)
    rw [List.cons_append, skipStringFrom_plain hquote hbackslash hcontrol]
    exact ih (by omega)
  | short hc h ih =>
    simp only [List.length_cons] at hsteps
    obtain ⟨steps, rfl⟩ := Nat.exists_eq_succ_of_ne_zero (Nat.ne_zero_of_lt hsteps)
    rw [List.cons_append, List.cons_append, skipStringFrom_short hc]
    exact ih (by omega)
  | unit hn h ih =>
    simp only [List.length_cons] at hsteps
    obtain ⟨steps, rfl⟩ := Nat.exists_eq_succ_of_ne_zero (Nat.ne_zero_of_lt hsteps)
    simp only [List.cons_append]
    rw [skipStringFrom_unit hn]
    exact ih (by omega)

/-- A string is skipped. -/
theorem StringForm.skipped (h : StringForm s) : Reads skipString s () :=
  fun rest _ => h.skipStringFrom (by rw [List.length_append]; omega) rest

end

/-! ## Numbers -/

section

variable {c : Char} {ds t : List Char}

theorem skipExponent_reads {sign : List Char} (hsign : sign = [] ∨ sign = ['+'] ∨ sign = ['-'])
    (hds : AllDigits (c :: ds)) : Reads skipExponent (sign ++ c :: ds) () := by
  intro rest hrest
  have hc := hds c List.mem_cons_self
  have hskip : skipDigits (ds ++ rest) = rest :=
    skipDigits_append (fun d hd => hds d (List.mem_cons_of_mem c hd)) hrest.endsDigits
  have hplus : c ≠ '+' := by rintro rfl; cases hc
  have hminus : c ≠ '-' := by rintro rfl; cases hc
  rcases hsign with rfl | rfl | rfl
  · simp [skipExponent, hplus, hminus, hc, hskip]
  · simp [skipExponent, hc, hskip]
  · simp [skipExponent, hc, hskip]

theorem ExponentForm.skipAfterFraction (h : ExponentForm t) :
    Reads Json.skipAfterFraction t () := by
  cases h with
  | none =>
    intro rest hrest
    cases rest with
    | nil => rfl
    | cons c rest =>
      obtain ⟨-, -, he, hE⟩ := hrest c rfl
      simp [Json.skipAfterFraction, he, hE]
  | some hmark hsign hds =>
    intro rest hrest
    have hskip := skipExponent_reads hsign hds rest hrest
    rcases hmark with rfl | rfl <;> exact hskip

theorem ExponentForm.skipAfterInteger (h : ExponentForm t) :
    Reads Json.skipAfterInteger t () := by
  intro rest hrest
  rw [← h.skipAfterFraction rest hrest]
  -- what goes on behind the digits does not start with a point
  cases h with
  | none =>
    cases rest with
    | nil => rfl
    | cons c rest =>
      obtain ⟨-, hpoint, -, -⟩ := hrest c rfl
      simp [Json.skipAfterInteger, hpoint]
  | some hmark => rcases hmark with rfl | rfl <;> rfl

theorem skipUnsigned_reads (hds : AllDigits (c :: ds)) (hzero : c = '0' → ds = [])
    (hends : ∀ rest, EndsNumber rest → EndsDigits (t ++ rest))
    (h : Reads skipAfterInteger t ()) : Reads skipUnsigned (c :: (ds ++ t)) () := by
  intro rest hrest
  have hend := hends rest hrest
  have hc := hds c List.mem_cons_self
  rw [← h rest hrest]
  by_cases hcase : c = '0'
  · rw [hzero hcase, hcase, List.nil_append, List.cons_append]
    cases htext : t ++ rest with
    | nil => rfl
    | cons d s =>
      rw [htext] at hend
      simp [skipUnsigned, hend d rfl]
  · have hskip : skipDigits (ds ++ (t ++ rest)) = t ++ rest :=
      skipDigits_append (fun d hd => hds d (List.mem_cons_of_mem c hd)) hend
    simp [skipUnsigned, hc, hskip]

/-- A number is skipped. -/
theorem UnsignedForm.skipped (h : UnsignedForm t) : Reads skipUnsigned t () := by
  cases h with
  | whole hds hzero h =>
    exact skipUnsigned_reads hds hzero (fun rest hrest => h.endsDigits hrest) h.skipAfterInteger
  | point hds hzero hfs h =>
    rename_i d _ fs t
    refine skipUnsigned_reads hds hzero (fun rest _ => endsDigits_cons _ (by decide)) ?_
    intro rest hrest
    have hd := hfs d List.mem_cons_self
    have hskip : skipDigits (fs ++ (t ++ rest)) = t ++ rest :=
      skipDigits_append (fun x hx => hfs x (List.mem_cons_of_mem d hx)) (h.endsDigits hrest)
    have hafter := h.skipAfterFraction rest hrest
    simp [skipAfterInteger, hd, hskip, hafter]

end

/-! ## Going on behind a value -/

/-- The character that opens a bracket. -/
def Bracket.opening : Bracket → Char
  | .list => '['
  | .object => '{'

/-- The character that closes a bracket. -/
def Bracket.closing : Bracket → Char
  | .list => ']'
  | .object => '}'

theorem Bracket.closing_cases (b : Bracket) : b.closing = ']' ∨ b.closing = '}' := by
  cases b
  · exact .inl rfl
  · exact .inr rfl

/-- What skipping does with the brackets that are open. -/
def proceed (steps : Nat) :
    Except Fault (List Bracket × List Char) → Except Fault (Unit × List Char)
  | .error e => .error e
  | .ok ([], after) => .ok ((), after)
  | .ok (.list :: outer, after) => skipValueFrom steps (.list :: outer) after
  | .ok (.object :: outer, after) =>
    match skipKey after with
    | .error e => .error e
    | .ok ((), after) => skipValueFrom steps (.object :: outer) after

/-- What skipping does behind a value that stands inside some brackets. -/
def resume (steps : Nat) (outer : List Bracket) : Reader Unit :=
  fun s => proceed steps (closeBrackets outer s)

/-- **A value is skipped** in one step and one for each value inside, whatever brackets it stands
in. -/
def Skips (v : List Char) (inside : Nat) : Prop :=
  ∀ steps outer rest, EndsNumber rest →
    skipValueFrom (steps + inside + 1) outer (v ++ rest) = resume steps outer rest

/-- An element inside brackets is skipped in a number of steps. -/
structure SkipsElement (b : Bracket) (e : List Char) (n : Nat) : Prop where
  head : ∀ rest, ∃ c cs, skipSpace (e ++ rest) = c :: cs ∧ c ≠ b.closing
  pos : 0 < n
  skips : ∀ steps outer rest, EndsNumber rest →
    proceed (steps + n) (.ok (b :: outer, e ++ rest)) = resume steps (b :: outer) rest

section

variable {b : Bracket} {n steps : Nat} {outer : List Bracket} {v rest : List Char}
  {es : List (List Char)}

/-! ### Blanks -/

theorem skipKey_skipsBlanks : SkipsBlanks skipKey := by
  intro gap rest
  rw [skipKey, skipKey, gap.skipSpace_append]

theorem skipValueFrom_skipsBlanks (steps : Nat) (outer : List Bracket) :
    SkipsBlanks (skipValueFrom (steps + 1) outer) := by
  intro gap rest
  rw [skipValueFrom, skipValueFrom, gap.skipSpace_append]

theorem proceed_skipsBlanks (steps : Nat) (b : Bracket) (outer : List Bracket) :
    SkipsBlanks fun s => proceed (steps + 1) (.ok (b :: outer, s)) := by
  intro gap rest
  cases b with
  | list => exact skipValueFrom_skipsBlanks steps _ gap rest
  | object => simp only [proceed, skipKey_skipsBlanks gap rest]

theorem resume_skipsBlanks (steps : Nat) (b : Bracket) (outer : List Bracket) :
    SkipsBlanks (resume steps (b :: outer)) := by
  intro gap rest
  rw [resume, resume, closeBrackets.eq_def, closeBrackets.eq_def]
  dsimp only
  rw [gap.skipSpace_append]

/-! ### Brackets -/

theorem resume_closing (steps : Nat) (b : Bracket) (outer : List Bracket) (rest : List Char) :
    resume steps (b :: outer) (b.closing :: rest) = resume steps outer rest := by
  cases b <;> rfl

theorem resume_comma (steps : Nat) (b : Bracket) (outer : List Bracket) (rest : List Char) :
    resume steps (b :: outer) (',' :: rest) = proceed steps (.ok (b :: outer, rest)) := by
  cases b <;> rfl

/-- **Elements in sequence** are skipped in as many steps as all of them, up to the closing
bracket. -/
theorem resume_moreText (h : ∀ e ∈ es, ∃ n ≤ e.length, SkipsElement b e n) :
    ∃ n, n < (moreText b.closing es).length ∧ ∀ steps outer rest,
      resume (steps + n) (b :: outer) (moreText b.closing es ++ rest) =
        resume steps outer rest := by
  induction es with
  | nil => exact ⟨0, Nat.zero_lt_one, fun steps outer rest => resume_closing steps b outer rest⟩
  | cons e es ih =>
    obtain ⟨n, hn, he⟩ := h e List.mem_cons_self
    obtain ⟨m, hm, hes⟩ := ih fun e he => h e (List.mem_cons_of_mem _ he)
    refine ⟨m + n, ?_, fun steps outer rest => ?_⟩
    · rw [moreText, List.length_cons, List.length_append]
      omega
    · rw [moreText, List.cons_append, List.append_assoc, resume_comma, ← Nat.add_assoc,
        he.skips _ _ _ (moreText_endsNumber b.closing_cases es rest), hes]

/-- What a step does with an opening bracket. -/
def openBracket (b : Bracket) (outer : List Bracket) (s : List Char) :
    Except Fault (List Bracket × List Char) :=
  match skipSpace s with
  | [] => .error (.here (if b = .list then .eofList else .eofObject) [])
  | c :: after => if c = b.closing then closeBrackets outer after else .ok (b :: outer, c :: after)

theorem skipValueFrom_opening (steps : Nat) (b : Bracket) (outer : List Bracket)
    (rest : List Char) : skipValueFrom (steps + 1) outer (b.opening :: rest) =
      proceed steps (openBracket b outer rest) := by
  have hspace : isSpace b.opening = false := by cases b <;> decide
  rw [skipValueFrom, skipSpace_cons _ hspace, openBracket]
  dsimp only
  cases skipSpace rest with
  | nil => cases b <;> rfl
  | cons c after =>
    by_cases hc : c = b.closing
    · subst hc
      cases b <;> rfl
    · dsimp only
      rw [if_neg hc]
      cases b with
      | list =>
        rw [Bracket.closing] at hc
        simp [Bracket.opening, hc]
        rfl
      | object =>
        rw [Bracket.closing] at hc
        simp [Bracket.opening, hc]
        rfl

/-- Elements between brackets are skipped. -/
theorem proceed_openBracket (gap : Gap) (h : ∀ e ∈ es, ∃ n ≤ e.length, SkipsElement b e n) :
    ∃ n, n < (elementsText b.closing true es).length ∧ ∀ steps outer rest,
      proceed (steps + n) (openBracket b outer
        (gap.chars ++ elementsText b.closing true es ++ rest)) = resume steps outer rest := by
  cases es with
  | nil =>
    refine ⟨0, Nat.zero_lt_one, fun steps outer rest => ?_⟩
    rw [List.append_assoc, openBracket, gap.skipSpace_append]
    cases b <;> rfl
  | cons e es =>
    obtain ⟨n, hn, he⟩ := h e List.mem_cons_self
    obtain ⟨m, hm, hes⟩ := resume_moreText fun e he => h e (List.mem_cons_of_mem _ he)
    refine ⟨m + n, ?_, fun steps outer rest => ?_⟩
    · rw [elementsText, List.length_append]
      omega
    · obtain ⟨c, cs, hhead, hc⟩ := he.head (moreText b.closing es ++ rest)
      obtain ⟨k, rfl⟩ := Nat.exists_eq_succ_of_ne_zero (Nat.ne_zero_of_lt he.pos)
      have hopen : openBracket b outer (gap.chars ++ (e ++ (moreText b.closing es ++ rest))) =
          .ok (b :: outer, skipSpace (e ++ (moreText b.closing es ++ rest))) := by
        rw [openBracket, gap.skipSpace_append, hhead]
        exact if_neg hc
      have hblanks := (proceed_skipsBlanks (steps + m + k) b outer).skipSpace
        (e ++ (moreText b.closing es ++ rest))
      rw [elementsText, List.append_assoc, List.append_assoc, hopen, ← Nat.add_assoc]
      exact (hblanks.trans (he.skips _ _ _ (moreText_endsNumber b.closing_cases es rest))).trans
        (hes steps outer rest)

/-- A value in brackets is skipped if its elements are. -/
theorem skips_brackets (gap : Gap) (h : ∀ e ∈ es, ∃ n ≤ e.length, SkipsElement b e n) :
    ∃ n < (b.opening :: (gap.chars ++ elementsText b.closing true es)).length,
      Skips (b.opening :: (gap.chars ++ elementsText b.closing true es)) n := by
  obtain ⟨n, hn, hskips⟩ := proceed_openBracket gap h
  refine ⟨n, ?_, fun steps outer rest _ => ?_⟩
  · rw [List.length_cons, List.length_append]
    exact Nat.lt_succ_of_lt (Nat.lt_of_lt_of_le hn (Nat.le_add_left _ _))
  · rw [List.cons_append, skipValueFrom_opening]
    exact hskips steps outer rest

/-! ## Elements -/

/-- An item is skipped as its value is. -/
theorem Skips.item {x : Item} (h : Skips x.text n)
    (hstart : ∃ c cs, x.text = c :: cs ∧ StartsValue c) : SkipsElement .list x.chars (n + 1) := by
  refine ⟨fun rest => ?_, Nat.succ_pos n, fun steps outer rest hrest => ?_⟩
  · obtain ⟨c, cs, htext, hc⟩ := hstart
    refine ⟨c, cs ++ (x.after.chars ++ rest), ?_, hc.2⟩
    rw [x.chars_append, x.before.skipSpace_append, htext, List.cons_append,
      skipSpace_cons _ hc.1]
  · change skipValueFrom (steps + n + 1) (.list :: outer) (x.chars ++ rest) = _
    rw [x.chars_append, skipValueFrom_skipsBlanks, h steps _ _ (x.after.endsNumber hrest),
      resume_skipsBlanks]

theorem skipKey_member {m : RawMember} (hkey : StringForm m.key) (rest : List Char) :
    skipKey (m.chars ++ rest) = .ok ((), m.value.chars ++ rest) := by
  have hends : EndsNumber (m.colon.chars ++ ':' :: (m.value.chars ++ rest)) :=
    m.colon.endsNumber (endsNumber_cons _ (by decide))
  rw [m.chars_append, skipKey_skipsBlanks, skipKey, skipSpace_cons _ (by decide)]
  simp only [hkey.skipped _ hends]
  rw [m.colon.skipSpace_append, skipSpace_cons _ (by decide)]
  rfl

/-- A member is skipped as its value is. -/
theorem Skips.member {m : RawMember} (h : Skips m.value.text n) (hkey : StringForm m.key) :
    SkipsElement .object m.chars (n + 1) := by
  refine ⟨fun rest => ?_, Nat.succ_pos n, fun steps outer rest hrest => ?_⟩
  · refine ⟨'"', m.key ++ (m.colon.chars ++ ':' :: (m.value.chars ++ rest)), ?_, by decide⟩
    rw [m.chars_append, m.before.skipSpace_append, skipSpace_cons _ (by decide)]
  · rw [proceed, skipKey_member hkey]
    change skipValueFrom (steps + n + 1) (.object :: outer) (m.value.chars ++ rest) = _
    rw [m.value.chars_append, skipValueFrom_skipsBlanks,
      h steps _ _ (m.value.after.endsNumber hrest), resume_skipsBlanks]

/-! ## Values -/

/-- A value that starts with no bracket is skipped in one step. -/
theorem Skips.scalar {c : Char} {s : List Char} (hc : isSpace c = false) (hlist : c ≠ '[')
    (hobject : c ≠ '{') (h : Reads (skipScalar c) s ()) : Skips (c :: s) 0 := by
  intro steps outer rest hrest
  rw [List.cons_append, skipValueFrom, skipSpace_cons _ hc]
  dsimp only
  rw [if_neg hlist, if_neg hobject, h rest hrest]
  rfl

theorem skipScalar_digit {c : Char} (hc : c.isDigit = true) (s : List Char) :
    skipScalar c s = skipUnsigned (c :: s) := by
  have hn : c ≠ 'n' := by rintro rfl; cases hc
  have ht : c ≠ 't' := by rintro rfl; cases hc
  have hf : c ≠ 'f' := by rintro rfl; cases hc
  have hminus : c ≠ '-' := by rintro rfl; cases hc
  rw [skipScalar, if_neg hn, if_neg ht, if_neg hf, if_neg hminus, if_pos hc]

/-- **Every value is skipped**, whatever its depth. -/
theorem ValueForm.skips (h : ValueForm v) : ∃ n < v.length, Skips v n := by
  induction h with
  | nullName =>
    exact ⟨0, by decide, .scalar (by decide) (by decide) (by decide) fun rest _ => rfl⟩
  | trueName =>
    exact ⟨0, by decide, .scalar (by decide) (by decide) (by decide) fun rest _ => rfl⟩
  | falseName =>
    exact ⟨0, by decide, .scalar (by decide) (by decide) (by decide) fun rest _ => rfl⟩
  | number h =>
    obtain ⟨c, cs, rfl, hc⟩ := h.start
    have hstart : StartsValue c := startsNumber_startsValue (by rw [startsNumber, hc, Bool.or_true])
    have hlist : c ≠ '[' := by rintro rfl; cases hc
    have hobject : c ≠ '{' := by rintro rfl; cases hc
    refine ⟨0, Nat.succ_pos _, .scalar hstart.1 hlist hobject fun rest hrest => ?_⟩
    rw [skipScalar_digit hc]
    exact h.skipped rest hrest
  | negative h =>
    exact ⟨0, Nat.succ_pos _, .scalar (by decide) (by decide) (by decide) h.skipped⟩
  | string h =>
    exact ⟨0, Nat.succ_pos _, .scalar (by decide) (by decide) (by decide) h.skipped⟩
  | list gap items hform ih =>
    have helements : ∀ e ∈ items.map Item.chars, ∃ n ≤ e.length, SkipsElement .list e n := by
      intro e he
      obtain ⟨x, hx, rfl⟩ := List.mem_map.mp he
      obtain ⟨n, hn, hskips⟩ := ih x hx
      refine ⟨n + 1, ?_, hskips.item (hform x hx).start⟩
      rw [Item.chars, List.length_append, List.length_append]
      omega
    exact skips_brackets gap helements
  | object gap members hkeys hform ih =>
    have helements : ∀ e ∈ members.map RawMember.chars,
        ∃ n ≤ e.length, SkipsElement .object e n := by
      intro e he
      obtain ⟨m, hm, rfl⟩ := List.mem_map.mp he
      obtain ⟨n, hn, hskips⟩ := ih m hm
      refine ⟨n + 1, ?_, hskips.member (hkeys m hm)⟩
      simp only [RawMember.chars, Item.chars, List.length_append, List.length_cons]
      omega
    exact skips_brackets gap helements

/-- **Any value may be ignored**, and the blanks in front of it. -/
theorem ValueForm.skipped (h : ValueForm v) (gap : Gap) : Reads skipValue (gap.chars ++ v) () := by
  obtain ⟨n, hn, hskips⟩ := h.skips
  intro rest hrest
  obtain ⟨steps, hsteps⟩ : ∃ steps, (gap.chars ++ v ++ rest).length + 1 = steps + n + 1 :=
    ⟨(gap.chars ++ v ++ rest).length - n, by simp only [List.length_append]; omega⟩
  rw [skipValue, hsteps, List.append_assoc, skipValueFrom_skipsBlanks]
  exact hskips steps [] rest hrest

end

end Json
end LaneBus
