import LaneBus.Proofs.Forms
import LaneBus.Proofs.Nesting

/-! # Reading back values

What is read back from the text of a value is the value with its numbers as they
are read and its objects in key order (`Value.reread`).  A sound value is read
back as long as its brackets nest no deeper than allowed (`readValue_chars`), and
its text is refused otherwise (`readValue_tooDeep`), so the bound on the brackets
is the only reason not to read back what was written.  Whatever is read is sound
and nests no deeper than allowed (`readValue_sound`).
-/
namespace LaneBus
namespace Json

/-- The number that is read for the text of a number. -/
def Number.reread (n : Number) : Number :=
  match n.text with
  | [] => n
  | c :: rest =>
    match readNumber c rest with
    | .ok (m, _) => m
    | .error _ => n

theorem reread_eq {n m : Number} (h : ReadsNumber n.text m) : n.reread = m := by
  obtain ⟨c, cs, htext, -, hread⟩ := h
  have hwhole := hread [] closes_nil
  rw [List.append_nil] at hwhole
  rw [Number.reread, htext]
  simp only [hwhole]

theorem numberText_reread {n : Number} (h : n.Sound) : ReadsNumber n.text n.reread := by
  obtain ⟨m, -, -, hreads⟩ := numberText_reads h
  rwa [reread_eq hreads]

theorem reread_int {k : Int} (h : (Number.int k).Sound) : (Number.int k).reread = .int k := by
  obtain ⟨m, -, hint, hreads⟩ := numberText_reads h
  rw [reread_eq hreads, hint k rfl]

namespace Value

/-- The value that is read for the text of a value. -/
def reread (v : Value) : Value := v.normalize Number.reread

/-- What follows an item of a list. -/
def itemsTail : List Value → List Char
  | [] => [']']
  | items => ',' :: itemsText items

/-- What follows a member of an object. -/
def membersTail : List (String × Value) → List Char
  | [] => ['}']
  | members => ',' :: membersText members

theorem itemsText_cons (x : Value) (xs : List Value) :
    itemsText (x :: xs) = x.chars ++ itemsTail xs := by
  cases xs with
  | nil => rw [itemsText, itemsTail]
  | cons y ys =>
    rw [itemsText, itemsTail] <;>
    · intro h
      cases h

theorem membersText_cons (k : String) (x : Value) (xs : List (String × Value)) :
    membersText ((k, x) :: xs) = '"' :: (stringTail k.toList ++ ':' :: (x.chars ++ membersTail xs)) := by
  cases xs with
  | nil =>
    rw [membersText, membersTail, quote]
    simp
  | cons y ys =>
    rw [membersText, membersTail, quote]
    · simp
    · intro h
      cases h
    · intro h
      cases h

theorem itemsTail_closes (xs : List Value) (rest : List Char) : Closes (itemsTail xs ++ rest) := by
  cases xs with
  | nil => exact closes_cons _ (by simp)
  | cons y ys => exact closes_cons _ (by simp)

theorem membersTail_closes (xs : List (String × Value)) (rest : List Char) :
    Closes (membersTail xs ++ rest) := by
  cases xs with
  | nil => exact closes_cons _ (by simp)
  | cons y ys => exact closes_cons _ (by simp)

theorem length_itemsText (xs : List Value) : xs.length ≤ (itemsText xs).length := by
  induction xs with
  | nil => exact Nat.zero_le _
  | cons x xs ih =>
    have htail : xs.length < (itemsTail xs).length := by
      cases xs with
      | nil => exact Nat.zero_lt_one
      | cons y ys => exact Nat.lt_succ_of_le ih
    rw [itemsText_cons, List.length_append, List.length_cons]
    omega

theorem length_membersText (xs : List (String × Value)) :
    xs.length ≤ (membersText xs).length := by
  induction xs with
  | nil => exact Nat.zero_le _
  | cons m xs ih =>
    obtain ⟨k, x⟩ := m
    rw [membersText_cons, List.length_cons, List.length_cons, List.length_append, List.length_cons,
      List.length_append]
    cases xs with
    | nil => rw [List.length_nil]; omega
    | cons y ys =>
      have htail : (membersTail (y :: ys)).length = (membersText (y :: ys)).length + 1 := rfl
      rw [List.length_cons] at ih ⊢
      omega

/-- A text has more characters than items, counting one for its end. -/
theorem length_lt_itemsText (xs : List Value) (rest : List Char) :
    xs.length < (itemsText xs ++ rest).length + 1 := by
  have hlength := length_itemsText xs
  rw [List.length_append]
  omega

theorem length_lt_membersText (xs : List (String × Value)) (rest : List Char) :
    xs.length < (membersText xs ++ rest).length + 1 := by
  have hlength := length_membersText xs
  rw [List.length_append]
  omega

end Value

/-! ## The first character of a value -/

/-- A value may start with a character. -/
def StartsValue (c : Char) : Prop := isSpace c = false ∧ c ≠ ']'

theorem startsNumber_startsValue {c : Char} (h : startsNumber c = true) : StartsValue c := by
  constructor
  · cases hc : isSpace c with
    | false => rfl
    | true =>
      simp only [isSpace, Bool.or_eq_true, decide_eq_true_eq] at hc
      rcases hc with ((rfl | rfl) | rfl) | rfl <;> cases h
  · rintro rfl
    cases h

theorem chars_head (v : Value) : ∃ c cs, v.chars = c :: cs ∧ StartsValue c := by
  cases v with
  | null => exact ⟨'n', _, rfl, by decide, by decide⟩
  | bool b =>
    cases b with
    | true => exact ⟨'t', _, rfl, by decide, by decide⟩
    | false => exact ⟨'f', _, rfl, by decide, by decide⟩
  | number n =>
    obtain ⟨c, cs, htext, hc, -⟩ := numberText_ends n
    exact ⟨c, cs, htext, startsNumber_startsValue hc⟩
  | string s => exact ⟨'"', _, rfl, by decide, by decide⟩
  | array items => exact ⟨'[', _, rfl, by decide, by decide⟩
  | object members => exact ⟨'{', _, rfl, by decide, by decide⟩

theorem skipSpace_cons {c : Char} (rest : List Char) (h : isSpace c = false) :
    skipSpace (c :: rest) = c :: rest := by
  rw [skipSpace, List.dropWhile_cons, h]
  rfl

/-! ## Moving through lists and objects -/

theorem nextItem_first {c : Char} (rest : List Char) (h : StartsValue c) :
    nextItem true (c :: rest) = .ok (true, c :: rest) := by
  rw [nextItem, skipSpace_cons rest h.1]
  split
  · rename_i heq
    cases heq
  · rename_i heq
    cases heq
    exact absurd rfl h.2
  · rename_i heq
    cases heq
    rfl

theorem nextItem_more {c : Char} (rest : List Char) (h : StartsValue c) :
    nextItem false (',' :: c :: rest) = .ok (true, c :: rest) := by
  have hcomma := skipSpace_cons (c :: rest) (show isSpace ',' = false by decide)
  have hvalue := skipSpace_cons rest h.1
  simp [nextItem, hcomma, hvalue, h.2]

theorem nextItem_end (first : Bool) (rest : List Char) :
    nextItem first (']' :: rest) = .ok (false, rest) := rfl

theorem nextKey_first (k : String) (rest : List Char) :
    nextKey true ('"' :: (stringTail k.toList ++ rest)) = .ok (some k, rest) := by
  have hquote := skipSpace_cons (stringTail k.toList ++ rest) (show isSpace '"' = false by decide)
  simp [nextKey, hquote, readString_stringTail]

theorem nextKey_more (k : String) (rest : List Char) :
    nextKey false (',' :: '"' :: (stringTail k.toList ++ rest)) = .ok (some k, rest) := by
  have hcomma := skipSpace_cons ('"' :: (stringTail k.toList ++ rest))
    (show isSpace ',' = false by decide)
  have hquote := skipSpace_cons (stringTail k.toList ++ rest) (show isSpace '"' = false by decide)
  simp [nextKey, hcomma, hquote, readString_stringTail]

theorem nextKey_end (first : Bool) (rest : List Char) :
    nextKey first ('}' :: rest) = .ok (none, rest) := rfl

theorem readColon_cons (rest : List Char) : readColon (':' :: rest) = .ok ((), rest) := rfl

/-- The text of some items, at the start of a list or after an item. -/
def itemsFrom (first : Bool) (xs : List Value) : List Char :=
  if first then Value.itemsText xs else Value.itemsTail xs

/-- The text of some members, at the start of an object or after a member. -/
def membersFrom (first : Bool) (ms : List (String × Value)) : List Char :=
  if first then Value.membersText ms else Value.membersTail ms

theorem nextItem_nil (first : Bool) (rest : List Char) :
    nextItem first (itemsFrom first [] ++ rest) = .ok (false, rest) := by
  cases first with
  | true => exact nextItem_end true rest
  | false => exact nextItem_end false rest

theorem nextItem_cons (first : Bool) (x : Value) (xs : List Value) (rest : List Char) :
    nextItem first (itemsFrom first (x :: xs) ++ rest) =
      .ok (true, x.chars ++ (Value.itemsTail xs ++ rest)) := by
  obtain ⟨c, cs, hchars, hc⟩ := chars_head x
  have htext : Value.itemsText (x :: xs) ++ rest = c :: (cs ++ (Value.itemsTail xs ++ rest)) := by
    rw [Value.itemsText_cons, hchars, List.cons_append, List.cons_append, List.append_assoc]
  rw [hchars, List.cons_append]
  cases first with
  | true =>
    change nextItem true (Value.itemsText (x :: xs) ++ rest) = _
    rw [htext]
    exact nextItem_first _ hc
  | false =>
    change nextItem false (',' :: (Value.itemsText (x :: xs) ++ rest)) = _
    rw [htext]
    exact nextItem_more _ hc

theorem nextKey_nil (first : Bool) (rest : List Char) :
    nextKey first (membersFrom first [] ++ rest) = .ok (none, rest) := by
  cases first with
  | true => exact nextKey_end true rest
  | false => exact nextKey_end false rest

theorem nextKey_cons (first : Bool) (k : String) (x : Value) (ms : List (String × Value))
    (rest : List Char) : nextKey first (membersFrom first ((k, x) :: ms) ++ rest) =
      .ok (some k, ':' :: (x.chars ++ (Value.membersTail ms ++ rest))) := by
  have htext : Value.membersText ((k, x) :: ms) ++ rest =
      '"' :: (stringTail k.toList ++ ':' :: (x.chars ++ (Value.membersTail ms ++ rest))) := by
    rw [Value.membersText_cons]
    simp only [List.cons_append, List.append_assoc]
  cases first with
  | true =>
    change nextKey true (Value.membersText ((k, x) :: ms) ++ rest) = _
    rw [htext]
    exact nextKey_first k _
  | false =>
    change nextKey false (',' :: (Value.membersText ((k, x) :: ms) ++ rest)) = _
    rw [htext]
    exact nextKey_more k _

/-! ## Reading back -/

/-- A value is read back from its text, whatever closes it. -/
def ReadBack (depth : Nat) (v : Value) : Prop :=
  ∀ rest, Closes rest → readValue depth (v.chars ++ rest) = .ok (v.reread, rest)

/-- The text of a value is refused. -/
def Refused (depth : Nat) (v : Value) : Prop :=
  ∀ rest, Closes rest → ∃ fault, readValue depth (v.chars ++ rest) = .error fault

theorem readValue_scalar (depth : Nat) {c : Char} (rest : List Char) (hc : isSpace c = false)
    (hlist : c ≠ '[') (hobject : c ≠ '{') :
    readValue depth (c :: rest) = readScalar c rest := by
  cases depth with
  | zero =>
    rw [readValue, skipSpace_cons rest hc]
    simp only
    rw [if_neg (by simp [hlist, hobject])]
  | succ depth =>
    rw [readValue, skipSpace_cons rest hc]
    simp only
    rw [if_neg hlist, if_neg hobject]

theorem readValue_list (depth : Nat) (rest : List Char) :
    readValue (depth + 1) ('[' :: rest) = mapRead .array (readItems (readValue depth) rest) := rfl

theorem readValue_object (depth : Nat) (rest : List Char) :
    readValue (depth + 1) ('{' :: rest) =
      mapRead .ofMembers (readMembers (readValue depth) rest) := rfl

theorem readScalar_number {c : Char} (rest : List Char) (h : startsNumber c = true) :
    readScalar c rest = mapRead .number (readNumber c rest) := by
  have hn : c ≠ 'n' := by rintro rfl; cases h
  have ht : c ≠ 't' := by rintro rfl; cases h
  have hf : c ≠ 'f' := by rintro rfl; cases h
  rw [readScalar, if_neg hn, if_neg ht, if_neg hf, if_pos h]

/-- A value without brackets is read back, whatever depth is allowed. -/
theorem readBack_scalar (depth : Nat) {v : Value} (hs : v.Sound) (h : v.nesting = 0) :
    ReadBack depth v := by
  intro rest hrest
  cases v with
  | null => exact readValue_scalar depth _ (by decide) (by decide) (by decide)
  | bool b =>
    cases b with
    | true => exact readValue_scalar depth _ (by decide) (by decide) (by decide)
    | false => exact readValue_scalar depth _ (by decide) (by decide) (by decide)
  | number n =>
    obtain ⟨c, cs, htext, hc, hread⟩ := numberText_reread hs
    have hstart := startsNumber_startsValue hc
    have hlist : c ≠ '[' := by rintro rfl; cases hc
    have hobject : c ≠ '{' := by rintro rfl; cases hc
    rw [Value.chars, htext, List.cons_append, readValue_scalar depth _ hstart.1 hlist hobject,
      readScalar_number _ hc, hread rest hrest, mapRead, Value.reread, Value.normalize]
  | string s =>
    rw [Value.chars, quote, List.cons_append,
      readValue_scalar depth _ (by decide) (by decide) (by decide)]
    change mapRead Value.string (readString (stringTail s.toList ++ rest)) = _
    rw [readString_stringTail, mapRead, Value.reread, Value.normalize]
  | array items => cases h
  | object members => cases h

theorem readItemsFrom_back {depth : Nat} {xs : List Value}
    (h : ∀ x ∈ xs, ReadBack depth x) {steps : Nat} (hsteps : xs.length < steps)
    (first : Bool) (rest : List Char) :
    readItemsFrom (readValue depth) steps first (itemsFrom first xs ++ rest) =
      .ok (Value.normalizeItems Number.reread xs, rest) := by
  induction xs generalizing steps first with
  | nil =>
    obtain ⟨steps, rfl⟩ := Nat.exists_eq_succ_of_ne_zero (Nat.ne_of_gt hsteps)
    rw [readItemsFrom, nextItem_nil, Value.normalizeItems]
  | cons x xs ih =>
    rw [List.length_cons] at hsteps
    obtain ⟨steps, rfl⟩ : ∃ n, steps = n + 1 := ⟨steps - 1, by omega⟩
    have hback := h x List.mem_cons_self
    have hfew : xs.length < steps := by omega
    have hrest := ih (fun y hy => h y (List.mem_cons_of_mem x hy)) hfew false
    rw [itemsFrom, if_neg Bool.false_ne_true] at hrest
    rw [readItemsFrom, nextItem_cons]
    simp only
    rw [hback _ (Value.itemsTail_closes xs rest)]
    simp only
    rw [hrest, Value.normalizeItems, Value.reread]

theorem readMembersFrom_back {depth : Nat} {ms : List (String × Value)}
    (h : ∀ m ∈ ms, ReadBack depth m.2) {steps : Nat} (hsteps : ms.length < steps)
    (first : Bool) (rest : List Char) :
    readMembersFrom (readValue depth) steps first (membersFrom first ms ++ rest) =
      .ok (Value.normalizeMembers Number.reread ms, rest) := by
  induction ms generalizing steps first with
  | nil =>
    obtain ⟨steps, rfl⟩ := Nat.exists_eq_succ_of_ne_zero (Nat.ne_of_gt hsteps)
    rw [readMembersFrom, nextKey_nil, Value.normalizeMembers]
  | cons m ms ih =>
    obtain ⟨k, x⟩ := m
    rw [List.length_cons] at hsteps
    obtain ⟨steps, rfl⟩ : ∃ n, steps = n + 1 := ⟨steps - 1, by omega⟩
    have hback := h (k, x) List.mem_cons_self
    have hfew : ms.length < steps := by omega
    have hrest := ih (fun y hy => h y (List.mem_cons_of_mem _ hy)) hfew false
    rw [membersFrom, if_neg Bool.false_ne_true] at hrest
    rw [readMembersFrom, nextKey_cons]
    simp only
    rw [readColon_cons]
    simp only
    rw [hback _ (Value.membersTail_closes ms rest)]
    simp only
    rw [hrest, Value.normalizeMembers, Value.reread]

/-- **A sound value is read back** when its brackets nest no deeper than allowed. -/
theorem readValue_chars {depth : Nat} {v : Value} (hs : v.Sound) (h : v.nesting ≤ depth) :
    ReadBack depth v := by
  induction depth generalizing v with
  | zero => exact readBack_scalar 0 hs (Nat.le_zero.1 h)
  | succ depth ih =>
    cases v with
    | array items =>
      rw [Value.nesting, Nat.add_le_add_iff_right, Value.itemsNesting_le_iff] at h
      rw [Value.Sound, Value.soundItems_iff] at hs
      intro rest hrest
      have hitems := readItemsFrom_back (fun x hx => ih (hs x hx) (h x hx))
        (Value.length_lt_itemsText items rest) true rest
      rw [Value.chars, List.cons_append, readValue_list, readItems]
      change mapRead Value.array (readItemsFrom _ _ true (itemsFrom true items ++ rest)) = _
      rw [hitems, mapRead, Value.reread, Value.normalize]
    | object members =>
      rw [Value.nesting, Nat.add_le_add_iff_right, Value.membersNesting_le_iff] at h
      rw [Value.Sound, Value.soundMembers_iff] at hs
      intro rest hrest
      have hmembers := readMembersFrom_back (fun m hm => ih (hs.2 m hm) (h m hm))
        (Value.length_lt_membersText members rest) true rest
      rw [Value.chars, List.cons_append, readValue_object, readMembers]
      change mapRead Value.ofMembers (readMembersFrom _ _ true (membersFrom true members ++ rest)) = _
      rw [hmembers, mapRead, Value.reread, Value.normalize]
    | null => exact readBack_scalar _ hs rfl
    | bool b => exact readBack_scalar _ hs rfl
    | number n => exact readBack_scalar _ hs rfl
    | string s => exact readBack_scalar _ hs rfl

/-! ## Nesting too deep -/

theorem mapRead_error {α β : Type} (f : α → β) {result : Except Fault (α × List Char)}
    (h : ∃ fault, result = .error fault) : ∃ fault, mapRead f result = .error fault := by
  obtain ⟨fault, rfl⟩ := h
  exact ⟨fault, rfl⟩

theorem readItemsFrom_refused {depth : Nat} {xs : List Value}
    (h : ∀ x ∈ xs, ReadBack depth x ∨ Refused depth x)
    (hrefused : ∃ x ∈ xs, Refused depth x) {steps : Nat} (hsteps : xs.length < steps)
    (first : Bool) (rest : List Char) : ∃ fault,
      readItemsFrom (readValue depth) steps first (itemsFrom first xs ++ rest) = .error fault := by
  induction xs generalizing steps first with
  | nil =>
    obtain ⟨x, hx, -⟩ := hrefused
    cases hx
  | cons x xs ih =>
    rw [List.length_cons] at hsteps
    obtain ⟨steps, rfl⟩ : ∃ n, steps = n + 1 := ⟨steps - 1, by omega⟩
    have hcases := h x List.mem_cons_self
    have hcloses := Value.itemsTail_closes xs rest
    rw [readItemsFrom, nextItem_cons]
    simp only
    -- the first item that is refused may be this one or a later one
    by_cases hx : Refused depth x
    · obtain ⟨fault, hfault⟩ := hx _ hcloses
      exact ⟨fault, by rw [hfault]⟩
    · have hback := hcases.resolve_right hx
      have hlater : ∃ y ∈ xs, Refused depth y := by simpa [hx] using hrefused
      have hfew : xs.length < steps := by omega
      obtain ⟨fault, hfault⟩ := ih (fun y hy => h y (List.mem_cons_of_mem x hy)) hlater hfew false
      rw [itemsFrom, if_neg Bool.false_ne_true] at hfault
      rw [hback _ hcloses]
      exact ⟨fault, by simp only [hfault]⟩

theorem readMembersFrom_refused {depth : Nat} {ms : List (String × Value)}
    (h : ∀ m ∈ ms, ReadBack depth m.2 ∨ Refused depth m.2)
    (hrefused : ∃ m ∈ ms, Refused depth m.2) {steps : Nat} (hsteps : ms.length < steps)
    (first : Bool) (rest : List Char) : ∃ fault,
      readMembersFrom (readValue depth) steps first (membersFrom first ms ++ rest) =
        .error fault := by
  induction ms generalizing steps first with
  | nil =>
    obtain ⟨m, hm, -⟩ := hrefused
    cases hm
  | cons m ms ih =>
    obtain ⟨k, x⟩ := m
    rw [List.length_cons] at hsteps
    obtain ⟨steps, rfl⟩ : ∃ n, steps = n + 1 := ⟨steps - 1, by omega⟩
    have hcases := h (k, x) List.mem_cons_self
    have hcloses := Value.membersTail_closes ms rest
    rw [readMembersFrom, nextKey_cons]
    simp only
    rw [readColon_cons]
    simp only
    by_cases hx : Refused depth x
    · obtain ⟨fault, hfault⟩ := hx _ hcloses
      exact ⟨fault, by rw [hfault]⟩
    · have hback := hcases.resolve_right hx
      have hlater : ∃ m ∈ ms, Refused depth m.2 := by
        rcases hrefused with ⟨y, hy, hyrefused⟩
        rcases List.mem_cons.1 hy with rfl | hy
        · exact absurd hyrefused hx
        · exact ⟨y, hy, hyrefused⟩
      have hfew : ms.length < steps := by omega
      obtain ⟨fault, hfault⟩ := ih (fun y hy => h y (List.mem_cons_of_mem _ hy)) hlater hfew false
      rw [membersFrom, if_neg Bool.false_ne_true] at hfault
      rw [hback _ hcloses]
      exact ⟨fault, by simp only [hfault]⟩

/-- **The text of a sound value is refused** when its brackets nest deeper than
allowed. -/
theorem readValue_tooDeep {depth : Nat} {v : Value} (hs : v.Sound) (h : depth < v.nesting) :
    Refused depth v := by
  induction depth generalizing v with
  | zero =>
    intro rest hrest
    cases v with
    | array items => exact ⟨_, rfl⟩
    | object members => exact ⟨_, rfl⟩
    | null => cases h
    | bool b => cases h
    | number n => cases h
    | string s => cases h
  | succ depth ih =>
    -- what comes before a value that nests too deep is read back or refused as well
    have hcases : ∀ x : Value, x.Sound → ReadBack depth x ∨ Refused depth x := by
      intro x hx
      rcases Nat.lt_or_ge depth x.nesting with hdeep | hflat
      · exact .inr (ih hx hdeep)
      · exact .inl (readValue_chars hx hflat)
    cases v with
    | array items =>
      rw [Value.Sound, Value.soundItems_iff] at hs
      obtain ⟨x, hx, hdeep⟩ := Value.lt_itemsNesting_iff.1 (Nat.lt_of_add_lt_add_right h)
      have hrefused : ∃ x ∈ items, Refused depth x := ⟨x, hx, ih (hs x hx) hdeep⟩
      intro rest hrest
      have hitems := readItemsFrom_refused (fun x hx => hcases x (hs x hx)) hrefused
        (Value.length_lt_itemsText items rest) true rest
      rw [Value.chars, List.cons_append, readValue_list, readItems]
      exact mapRead_error _ hitems
    | object members =>
      rw [Value.Sound, Value.soundMembers_iff] at hs
      obtain ⟨m, hm, hdeep⟩ := Value.lt_membersNesting_iff.1 (Nat.lt_of_add_lt_add_right h)
      have hrefused : ∃ m ∈ members, Refused depth m.2 := ⟨m, hm, ih (hs.2 m hm) hdeep⟩
      intro rest hrest
      have hmembers := readMembersFrom_refused (fun m hm => hcases m.2 (hs.2 m hm)) hrefused
        (Value.length_lt_membersText members rest) true rest
      rw [Value.chars, List.cons_append, readValue_object, readMembers]
      exact mapRead_error _ hmembers
    | null => cases h
    | bool b => cases h
    | number n => cases h
    | string s => cases h

/-! ## Only sound values are read -/

theorem mapRead_ok {α β : Type} {f : α → β} {result : Except Fault (α × List Char)} {y : β}
    {rest : List Char} (h : mapRead f result = .ok (y, rest)) :
    ∃ x, result = .ok (x, rest) ∧ y = f x := by
  cases result with
  | error fault => cases h
  | ok found =>
    obtain ⟨x, after⟩ := found
    cases h
    exact ⟨x, rfl, rfl⟩

/-- What holds of every item that is read holds of every item of a list. -/
theorem readItemsFrom_forall {α : Type} {item : Reader α} {P : α → Prop}
    (hitem : ∀ s x rest, item s = .ok (x, rest) → P x) {steps : Nat} {first : Bool}
    {s rest : List Char} {xs : List α} (h : readItemsFrom item steps first s = .ok (xs, rest)) :
    ∀ x ∈ xs, P x := by
  induction steps generalizing first s xs rest with
  | zero => cases h
  | succ steps ih =>
    rw [readItemsFrom] at h
    split at h
    · cases h
    · cases h
      intro x hx
      cases hx
    · split at h
      · cases h
      · rename_i hread
        split at h
        · cases h
        · rename_i hmore
          cases h
          intro x hx
          rcases List.mem_cons.1 hx with rfl | hx
          · exact hitem _ _ _ hread
          · exact ih hmore x hx

theorem readMembersFrom_forall {item : Reader Value} {P : Value → Prop}
    (hitem : ∀ s x rest, item s = .ok (x, rest) → P x) {steps : Nat} {first : Bool}
    {s rest : List Char} {ms : List (String × Value)}
    (h : readMembersFrom item steps first s = .ok (ms, rest)) : ∀ m ∈ ms, P m.2 := by
  induction steps generalizing first s ms rest with
  | zero => cases h
  | succ steps ih =>
    rw [readMembersFrom] at h
    split at h
    · cases h
    · cases h
      intro m hm
      cases hm
    · split at h
      · cases h
      · split at h
        · cases h
        · rename_i hread
          split at h
          · cases h
          · rename_i hmore
            cases h
            intro m hm
            rcases List.mem_cons.1 hm with rfl | hm
            · exact hitem _ _ _ hread
            · exact ih hmore m hm

theorem readScalar_sound {c : Char} {s rest : List Char} {v : Value}
    (h : readScalar c s = .ok (v, rest)) : v.Sound ∧ v.nesting = 0 := by
  unfold readScalar at h
  split_ifs at h
  · obtain ⟨x, -, rfl⟩ := mapRead_ok h
    exact ⟨trivial, rfl⟩
  · obtain ⟨x, -, rfl⟩ := mapRead_ok h
    exact ⟨trivial, rfl⟩
  · obtain ⟨x, -, rfl⟩ := mapRead_ok h
    exact ⟨trivial, rfl⟩
  · obtain ⟨n, hread, rfl⟩ := mapRead_ok h
    exact ⟨readNumber_sound _ _ _ _ hread, rfl⟩
  · obtain ⟨x, -, rfl⟩ := mapRead_ok h
    exact ⟨trivial, rfl⟩

/-- **Only sound values are read**, of brackets that nest no deeper than allowed. -/
theorem readValue_sound {depth : Nat} {s rest : List Char} {v : Value}
    (h : readValue depth s = .ok (v, rest)) : v.Sound ∧ v.nesting ≤ depth := by
  induction depth generalizing s v rest with
  | zero =>
    rw [readValue] at h
    split at h
    · cases h
    · split at h
      · cases h
      · obtain ⟨hsound, hflat⟩ := readScalar_sound h
        exact ⟨hsound, Nat.le_of_eq hflat⟩
  | succ depth ih =>
    rw [readValue] at h
    split at h
    · cases h
    · split_ifs at h
      · obtain ⟨items, hread, rfl⟩ := mapRead_ok h
        have hall := readItemsFrom_forall
          (P := fun x => x.Sound ∧ x.nesting ≤ depth) (fun s x rest hx => ih hx) hread
        rw [Value.Sound, Value.soundItems_iff, Value.nesting, Nat.add_le_add_iff_right,
          Value.itemsNesting_le_iff]
        exact ⟨fun x hx => (hall x hx).1, fun x hx => (hall x hx).2⟩
      · obtain ⟨members, hread, rfl⟩ := mapRead_ok h
        have hall := readMembersFrom_forall
          (P := fun x => x.Sound ∧ x.nesting ≤ depth) (fun s x rest hx => ih hx) hread
        refine ⟨Value.ofMembers_sound (Value.soundMembers_iff.2 fun m hm => (hall m hm).1), ?_⟩
        exact Value.ofMembers_nesting_le
          (Value.membersNesting_le_iff.2 fun m hm => (hall m hm).2)
      · obtain ⟨hsound, hflat⟩ := readScalar_sound h
        exact ⟨hsound, by omega⟩

/-! ## Whole texts -/

theorem chars_toList (v : Value) : v.text.toList = v.chars := String.toList_ofList

/-- What a whole text is decoded as was read from it. -/
theorem decode_read {α : Type} [Decode α] {text : String} {x : α} (h : decode α text = .ok x) :
    ∃ rest, Decode.read maxDepth text.toList = .ok (x, rest) := by
  unfold decode at h
  dsimp only at h
  split at h
  · cases h
  · rename_i y rest hread
    split at h
    · cases h
      exact ⟨rest, hread⟩
    · cases h

/-- What is read of the text of a value up to its end is what the text is decoded as. -/
theorem decode_of_read {α : Type} [Decode α] {v : Value} {x : α}
    (h : Decode.read maxDepth v.chars = .ok (x, [])) : decode α v.text = .ok x := by
  unfold decode
  dsimp only
  rw [chars_toList, h]
  rfl

/-- The text of a sound value is decoded as the value that is read back. -/
theorem decode_value {v : Value} (hs : v.Sound) (h : v.nesting ≤ maxDepth) :
    decode Value v.text = .ok v.reread := by
  have hread := readValue_chars hs h [] closes_nil
  rw [List.append_nil] at hread
  exact decode_of_read hread

end Json
end LaneBus
