import LaneBus.Proofs.Envelopes
import LaneBus.Proofs.Syntax

/-! # Values that are interpreted

A reader of values settles on every value of the grammar (`ReadsValues`): what it makes of a
value depends neither on the blanks in front nor on what follows.  So do the readers of any
value, of strings, of timestamps and of what may be null.  An item or member is settled before
those behind it, each with one step (`readItemsFrom_settles`, `readMembersFrom_settles`).
-/
namespace LaneBus
namespace Json

/-- **A reader of values** settles on every value, whatever blanks stand in front. -/
structure ReadsValues {α : Type} (R : Reader α) : Prop where
  skipsBlanks : SkipsBlanks R
  settles : ∀ {v : List Char}, ValueForm v → Settles R v

variable {α β : Type} {rest v : List Char}

theorem ReadsValues.mapRead {R : Reader α} (h : ReadsValues R) (f : α → β) :
    ReadsValues fun s => mapRead f (R s) where
  skipsBlanks gap rest := congrArg (Json.mapRead f) (h.skipsBlanks gap rest)
  settles hv := (h.settles hv).mapRead f

theorem Settles.gap {R : Reader α} (h : Settles R v) (hskips : SkipsBlanks R) (gap : Gap) :
    Settles R (gap.chars ++ v) :=
  h.congr fun rest _ => by rw [List.append_assoc, hskips]

/-! ## Moving through lists and objects -/

theorem nextItem_skipsBlanks (first : Bool) : SkipsBlanks (nextItem first) := by
  intro gap rest
  rw [nextItem, nextItem, gap.skipSpace_append]

theorem nextItem_comma (gap : Gap) (rest : List Char) :
    nextItem false (',' :: (gap.chars ++ rest)) = nextItem false (',' :: rest) := by
  have hcomma (s : List Char) := skipSpace_cons s (show isSpace ',' = false by decide)
  simp [nextItem, hcomma, gap.skipSpace_append]

theorem nextItem_none (first : Bool) (rest : List Char) :
    nextItem first (elementsText ']' first [] ++ rest) = .ok (false, rest) := by
  rw [elementsText_nil]
  exact nextItem_end first rest

theorem nextItem_item (first : Bool) {x : Item} (hx : ValueForm x.text) (xs : List (List Char))
    (rest : List Char) : nextItem first (elementsText ']' first (x.chars :: xs) ++ rest) =
      .ok (true, x.text ++ (x.after.chars ++ (moreText ']' xs ++ rest))) := by
  obtain ⟨c, cs, htext, hc⟩ := hx.start
  cases first with
  | true =>
    rw [elementsText, List.append_assoc, x.chars_append, nextItem_skipsBlanks, htext]
    exact nextItem_first _ hc
  | false =>
    change nextItem false (',' :: (x.chars ++ moreText ']' xs ++ rest)) = _
    rw [List.append_assoc, x.chars_append, nextItem_comma, htext]
    exact nextItem_more _ hc

theorem nextKey_skipsBlanks (first : Bool) : SkipsBlanks (nextKey first) := by
  intro gap rest
  rw [nextKey, nextKey, gap.skipSpace_append]

theorem nextKey_comma (gap : Gap) (rest : List Char) :
    nextKey false (',' :: (gap.chars ++ rest)) = nextKey false (',' :: rest) := by
  have hcomma (s : List Char) := skipSpace_cons s (show isSpace ',' = false by decide)
  simp [nextKey, hcomma, gap.skipSpace_append]

theorem nextKey_none (first : Bool) (rest : List Char) :
    nextKey first (elementsText '}' first [] ++ rest) = .ok (none, rest) := by
  rw [elementsText_nil]
  exact nextKey_end first rest

theorem nextKey_quote (rest : List Char) :
    nextKey true ('"' :: rest) = mapRead some (readString rest) ∧
      nextKey false (',' :: '"' :: rest) = mapRead some (readString rest) := by
  have hquote := skipSpace_cons rest (show isSpace '"' = false by decide)
  have hcomma := skipSpace_cons ('"' :: rest) (show isSpace ',' = false by decide)
  constructor
  · cases h : readString rest <;> simp [nextKey, hquote, h, Json.mapRead]
  · cases h : readString rest <;> simp [nextKey, hcomma, hquote, h, Json.mapRead]

theorem nextKey_member (first : Bool) (m : RawMember) (ms : List (List Char))
    (rest : List Char) : nextKey first (elementsText '}' first (m.chars :: ms) ++ rest) =
      mapRead some (readString (m.key ++
        (m.colon.chars ++ ':' :: (m.value.chars ++ (moreText '}' ms ++ rest))))) := by
  cases first with
  | true =>
    rw [elementsText, List.append_assoc, m.chars_append, nextKey_skipsBlanks]
    exact (nextKey_quote _).1
  | false =>
    change nextKey false (',' :: (m.chars ++ moreText '}' ms ++ rest)) = _
    rw [List.append_assoc, m.chars_append, nextKey_comma]
    exact (nextKey_quote _).2

theorem readColon_gap (gap : Gap) (rest : List Char) :
    readColon (gap.chars ++ ':' :: rest) = .ok ((), rest) := by
  rw [readColon, gap.skipSpace_append]
  rfl

/-! ## Items and members -/

theorem readItemsFrom_skipsBlanks (item : Reader α) (steps : Nat) (first : Bool) :
    SkipsBlanks (readItemsFrom item (steps + 1) first) := by
  intro gap rest
  rw [readItemsFrom, readItemsFrom, nextItem_skipsBlanks]

theorem readItemsFrom_item (item : Reader α) (steps : Nat) (first : Bool) {x : Item}
    (hx : ValueForm x.text) (xs : List (List Char)) (rest : List Char) :
    readItemsFrom item (steps + 1) first (elementsText ']' first (x.chars :: xs) ++ rest) =
      andThen item (fun y s => mapRead (y :: ·) (readItemsFrom item steps false s))
        (x.text ++ (x.after.chars ++ (moreText ']' xs ++ rest))) := by
  rw [readItemsFrom, nextItem_item first hx, andThen]
  dsimp only
  cases item (x.text ++ (x.after.chars ++ (moreText ']' xs ++ rest))) with
  | error fault => rfl
  | ok read =>
    dsimp only
    cases readItemsFrom item steps false read.2 <;> rfl

theorem readItemsFrom_settles {item : Reader α} {items : List Item}
    (hform : ∀ x ∈ items, ValueForm x.text) (h : ∀ x ∈ items, Settles item x.text) (gap : Gap)
    (first : Bool) : SettlesIn (fun steps => readItemsFrom item steps first)
      (gap.chars ++ elementsText ']' first (items.map Item.chars)) := by
  induction items generalizing gap first with
  | nil =>
    refine .reads [] fun steps hsteps rest _ => ?_
    obtain ⟨steps, rfl⟩ := Nat.exists_eq_succ_of_ne_zero (Nat.ne_zero_of_lt hsteps)
    rw [List.append_assoc, readItemsFrom_skipsBlanks, readItemsFrom]
    simp only [List.map_nil, nextItem_none]
  | cons x xs ih =>
    have hx := hform x List.mem_cons_self
    have hmore := ih (fun y hy => hform y (List.mem_cons_of_mem x hy))
      (fun y hy => h y (List.mem_cons_of_mem x hy)) x.after false
    rw [elementsText_false] at hmore
    refine SettlesIn.step (h x List.mem_cons_self) (fun rest _ => ?_)
      (fun y => hmore.mapRead (y :: ·)) ?_ fun steps rest => ?_
    · rw [List.append_assoc]
      exact x.after.endsNumber (moreText_endsNumber (.inl rfl) _ rest)
    · obtain ⟨c, cs, htext, -⟩ := hx.start
      have hlength : x.text.length = cs.length + 1 := by rw [htext, List.length_cons]
      cases first <;> simp [elementsText, moreText, Item.chars] <;> omega
    · rw [List.append_assoc, readItemsFrom_skipsBlanks, List.map_cons, readItemsFrom_item _ _ _ hx,
        List.append_assoc]

/-- Reads a member from behind the opening quote of its key. -/
def readMember (item : Reader α) : Reader (String × α) :=
  andThen readString fun k => andThen readColon fun _ s => mapRead (fun x => (k, x)) (item s)

theorem readMembersFrom_skipsBlanks (item : Reader Value) (steps : Nat) (first : Bool) :
    SkipsBlanks (readMembersFrom item (steps + 1) first) := by
  intro gap rest
  rw [readMembersFrom, readMembersFrom, nextKey_skipsBlanks]

theorem readMembersFrom_member (item : Reader Value) (steps : Nat) (first : Bool) (m : RawMember)
    (ms : List (List Char)) (rest : List Char) :
    readMembersFrom item (steps + 1) first (elementsText '}' first (m.chars :: ms) ++ rest) =
      andThen (readMember item) (fun y s => mapRead (y :: ·) (readMembersFrom item steps false s))
        (m.key ++ (m.colon.chars ++ ':' :: (m.value.chars ++ (moreText '}' ms ++ rest)))) := by
  rw [readMembersFrom, nextKey_member, andThen, readMember, andThen]
  cases readString (m.key ++
    (m.colon.chars ++ ':' :: (m.value.chars ++ (moreText '}' ms ++ rest)))) with
  | error fault => rfl
  | ok read =>
    obtain ⟨k, s⟩ := read
    simp only [mapRead, andThen]
    cases readColon s with
    | error fault => rfl
    | ok read =>
      dsimp only
      cases item read.2 with
      | error fault => rfl
      | ok read =>
        dsimp only
        cases readMembersFrom item steps false read.2 <;> rfl

theorem readMember_settles {item : Reader α} (hskips : SkipsBlanks item) {m : RawMember}
    (hkey : StringForm m.key) (hvalue : Settles item m.value.text) :
    Settles (readMember item)
      (m.key ++ (m.colon.chars ++ ':' :: (m.value.before.chars ++ m.value.text))) := by
  refine hkey.settles.andThen (fun rest _ => ?_) fun k => ?_
  · rw [List.append_assoc]
    exact m.colon.endsNumber (endsNumber_cons _ (by decide))
  · refine ((hvalue.gap hskips m.value.before).mapRead fun x => (k, x)).congr fun rest _ => ?_
    rw [List.append_assoc]
    exact andThen_ok (readColon_gap m.colon _)

theorem readMembersFrom_settles {item : Reader Value} (hskips : SkipsBlanks item)
    {members : List RawMember} (hkeys : ∀ m ∈ members, StringForm m.key)
    (h : ∀ m ∈ members, Settles item m.value.text) (gap : Gap) (first : Bool) :
    SettlesIn (fun steps => readMembersFrom item steps first)
      (gap.chars ++ elementsText '}' first (members.map RawMember.chars)) := by
  induction members generalizing gap first with
  | nil =>
    refine .reads [] fun steps hsteps rest _ => ?_
    obtain ⟨steps, rfl⟩ := Nat.exists_eq_succ_of_ne_zero (Nat.ne_zero_of_lt hsteps)
    rw [List.append_assoc, readMembersFrom_skipsBlanks, readMembersFrom]
    simp only [List.map_nil, nextKey_none]
  | cons m ms ih =>
    have hmore := ih (fun n hn => hkeys n (List.mem_cons_of_mem m hn))
      (fun n hn => h n (List.mem_cons_of_mem m hn)) m.value.after false
    rw [elementsText_false] at hmore
    refine SettlesIn.step
      (readMember_settles hskips (hkeys m List.mem_cons_self) (h m List.mem_cons_self))
      (fun rest _ => ?_) (fun n => hmore.mapRead (n :: ·)) ?_ fun steps rest => ?_
    · rw [List.append_assoc]
      exact m.value.after.endsNumber (moreText_endsNumber (.inr rfl) _ rest)
    · cases first <;> simp [elementsText, moreText, RawMember.chars, Item.chars] <;> omega
    · rw [List.append_assoc, readMembersFrom_skipsBlanks, List.map_cons, readMembersFrom_member]
      simp [Item.chars]

/-! ## Any value -/

theorem readValue_skipsBlanks (depth : Nat) : SkipsBlanks (readValue depth) := by
  intro gap rest
  cases depth with
  | zero => rw [readValue, readValue, gap.skipSpace_append]
  | succ depth => rw [readValue, readValue, gap.skipSpace_append]

/-- The readers of numbers, with and without a sign. -/
theorem UnsignedForm.settles {body : List Char} (h : UnsignedForm body) (depth : Nat) :
    Settles (readValue depth) body ∧ Settles (readValue depth) ('-' :: body) := by
  constructor
  · refine ((readUnsigned_settles false h.numberForm).mapRead .number).congr fun rest _ => ?_
    obtain ⟨c, cs, rfl, hc⟩ := h.start
    have hstart : startsNumber c = true := by rw [startsNumber, hc, Bool.or_true]
    have hlist : c ≠ '[' := by rintro rfl; cases hc
    have hobject : c ≠ '{' := by rintro rfl; cases hc
    have hminus : c ≠ '-' := by rintro rfl; cases hc
    rw [List.cons_append,
      readValue_scalar depth _ (startsNumber_startsValue hstart).1 hlist hobject,
      readScalar_number _ hstart, readNumber, if_neg hminus]
  · refine ((readUnsigned_settles true h.numberForm).mapRead .number).congr fun rest _ => ?_
    exact readValue_scalar depth _ (by decide) (by decide) (by decide)

theorem readValue_settles (h : ValueForm v) (depth : Nat) : Settles (readValue depth) v := by
  induction h generalizing depth with
  | nullName =>
    exact .reads .null fun rest _ =>
      readValue_scalar depth _ (by decide) (by decide) (by decide)
  | trueName =>
    exact .reads (.bool true) fun rest _ =>
      readValue_scalar depth _ (by decide) (by decide) (by decide)
  | falseName =>
    exact .reads (.bool false) fun rest _ =>
      readValue_scalar depth _ (by decide) (by decide) (by decide)
  | number h => exact (h.settles depth).1
  | negative h => exact (h.settles depth).2
  | string h =>
    refine (h.settles.mapRead Value.string).congr fun rest _ => ?_
    exact readValue_scalar depth _ (by decide) (by decide) (by decide)
  | list gap items hform ih =>
    cases depth with
    | zero => exact .refuses fun rest _ => ⟨_, rfl⟩
    | succ depth =>
      have hitems := readItemsFrom_settles hform (fun x hx => ih x hx depth) gap true
      refine (hitems.settles.mapRead Value.array).congr fun rest _ => ?_
      exact readValue_list depth _
  | object gap members hkeys hform ih =>
    cases depth with
    | zero => exact .refuses fun rest _ => ⟨_, rfl⟩
    | succ depth =>
      have hmembers := readMembersFrom_settles (readValue_skipsBlanks depth) hkeys
        (fun m hm => ih m hm depth) gap true
      refine (hmembers.settles.mapRead Value.ofMembers).congr fun rest _ => ?_
      exact readValue_object depth _

/-- **Any value is interpreted.** -/
theorem readsValues_value (depth : Nat) : ReadsValues (readValue depth) where
  skipsBlanks := readValue_skipsBlanks depth
  settles h := readValue_settles h depth

/-! ## Types -/

theorem readText_skipsBlanks : SkipsBlanks readText := by
  intro gap rest
  rw [readText, readText, gap.skipSpace_append]

theorem readTimestamp_skipsBlanks : SkipsBlanks Timestamp.read := by
  intro gap rest
  rw [Timestamp.read, Timestamp.read, gap.skipSpace_append]

theorem readOptional_skipsBlanks (item : Reader α) : SkipsBlanks (readOptional item) := by
  intro gap rest
  rw [readOptional, readOptional, gap.skipSpace_append]

/-- A reader of strings refuses everything else. -/
theorem readText_refuses {c : Char} (hc : isSpace c = false) (hquote : c ≠ '"') (s : List Char) :
    Refuses readText (c :: s) := by
  intro rest _
  rw [List.cons_append, readText, skipSpace_cons _ hc]
  split
  · rename_i heq
    cases heq
  · rename_i heq
    exact absurd (List.cons.inj heq).1 hquote
  · exact ⟨_, rfl⟩

/-- The timestamp of a text, at the end of the text. -/
def parseTimestamp (text : String) : Reader Timestamp := fun rest =>
  match Timestamp.parse text with
  | .error e => .error (.here (.custom e.message) rest)
  | .ok t => .ok (t, rest)

theorem readTimestamp_quote (s : List Char) :
    Timestamp.read ('"' :: s) = andThen readString parseTimestamp s := by
  have hquote := skipSpace_cons s (show isSpace '"' = false by decide)
  cases h : readString s with
  | error fault => simp [Timestamp.read, hquote, andThen, h]
  | ok read =>
    cases hparse : Timestamp.parse read.1 <;>
      simp [Timestamp.read, hquote, andThen, h, parseTimestamp, hparse]

theorem parseTimestamp_settles (text : String) : Settles (parseTimestamp text) [] := by
  cases h : Timestamp.parse text with
  | error e => exact .refuses fun rest _ => ⟨_, by rw [List.nil_append, parseTimestamp, h]⟩
  | ok t => exact .reads t fun rest _ => by rw [List.nil_append, parseTimestamp, h]

theorem readTimestamp_refuses {c : Char} (hc : isSpace c = false) (hquote : c ≠ '"')
    (s : List Char) : Refuses Timestamp.read (c :: s) := by
  intro rest _
  rw [List.cons_append, Timestamp.read, skipSpace_cons _ hc]
  split
  · rename_i heq
    cases heq
  · rename_i heq
    exact absurd (List.cons.inj heq).1 hquote
  · exact ⟨_, rfl⟩

/-- **Strings are interpreted.** -/
theorem readsValues_text : ReadsValues readText where
  skipsBlanks := readText_skipsBlanks
  settles hv := by
    obtain ⟨c, cs, rfl, hc⟩ := hv.start
    by_cases hquote : c = '"'
    · subst hquote
      exact hv.of_quote.settles.congr fun rest _ => rfl
    · exact .refuses (readText_refuses hc.1 hquote cs)

/-- **Timestamps are interpreted.** -/
theorem readsValues_timestamp : ReadsValues Timestamp.read where
  skipsBlanks := readTimestamp_skipsBlanks
  settles hv := by
    obtain ⟨c, cs, rfl, hc⟩ := hv.start
    by_cases hquote : c = '"'
    · subst hquote
      have hread : Settles (andThen readString parseTimestamp) (cs ++ []) :=
        hv.of_quote.settles.andThen (fun _ hrest => hrest) parseTimestamp_settles
      rw [List.append_nil] at hread
      exact hread.congr fun rest _ => readTimestamp_quote _
    · exact .refuses (readTimestamp_refuses hc.1 hquote cs)

/-- **What may be null is interpreted.** -/
theorem ReadsValues.optional {item : Reader α} (h : ReadsValues item) :
    ReadsValues (readOptional item) where
  skipsBlanks := readOptional_skipsBlanks item
  settles hv := by
    obtain ⟨c, cs, rfl, hc⟩ := hv.start
    by_cases hnull : c = 'n'
    · subst hnull
      obtain rfl := hv.of_n
      exact .reads none fun rest _ => rfl
    · refine ((h.settles hv).mapRead some).congr fun rest _ => ?_
      exact readOptional_cons item _ hc.1 hnull

end Json
end LaneBus
