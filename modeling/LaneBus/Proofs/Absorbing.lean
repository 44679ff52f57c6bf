import LaneBus.Proofs.Ignoring
import LaneBus.Proofs.Interpreting

/-! # Records and the members they are read from

A record is read from an object member by member.  As the readers of its fields settle, what a
member does to a draft depends on its key and value alone, not on where it stands
(`RecordFormat.absorb`), and the object is read as the record of the draft that all members
leave (`RecordFormat.read_members`).

A record may be read from a list of its fields as well, so that records settle on every value
if their fields do (`RecordFormat.readsValues_record`).
-/
namespace LaneBus
namespace Json
namespace RecordFormat

variable {σ α : Type} {f : RecordFormat σ α} {depth : Nat}

/-- The readers of all fields settle on values. -/
structure Interprets (f : RecordFormat σ α) (depth : Nat) : Prop where
  field : ∀ {k step acc value}, f.field k = some step → step acc = .ok value →
    ReadsValues (value depth)
  item : ∀ i acc {v}, ValueForm v → Settles (f.item i acc depth) v

/-! ## What a member does -/

/-- The draft after the value of a field. -/
def fill (depth : Nat) (step : σ → Except Issue (Nat → Reader σ)) (v : List Char) (acc : σ) :
    Option σ :=
  (step acc).toOption.bind fun value => result? (value depth) v

/-- The draft after a value of some name.  One that is not the name of a field leaves the draft
as it was. -/
def fillNamed (f : RecordFormat σ α) (depth : Nat) (k : String) (v : List Char) (acc : σ) :
    Option σ :=
  match f.field k with
  | none => some acc
  | some step => fill depth step v acc

/-- **The draft after a member**, if there is one. -/
def absorb (f : RecordFormat σ α) (depth : Nat) (acc? : Option σ) (m : RawMember) : Option σ :=
  acc?.bind fun acc => (result? readString m.key).bind fun k =>
    f.fillNamed depth k m.value.text acc

/-- The draft after some members. -/
def absorbAll (f : RecordFormat σ α) (depth : Nat) (acc? : Option σ) (ms : List RawMember) :
    Option σ :=
  ms.foldl (f.absorb depth) acc?

theorem absorbAll_none (ms : List RawMember) : f.absorbAll depth none ms = none := by
  induction ms with
  | nil => rfl
  | cons m ms ih => exact ih

theorem absorbAll_cons (acc? : Option σ) (m : RawMember) (ms : List RawMember) :
    f.absorbAll depth acc? (m :: ms) = f.absorbAll depth (f.absorb depth acc? m) ms := rfl

/-! ## Reading members -/

/-- Reads what follows a key. -/
def readField (f : RecordFormat σ α) (depth : Nat) (acc : σ) (k : String) : Reader σ :=
  match f.field k with
  | none => andThen readColon fun _ s => mapRead (fun _ => acc) (skipValue s)
  | some step =>
    match step acc with
    | .error issue => fun s => .error (.here issue (afterRefusal s))
    | .ok value => andThen readColon fun _ => value depth

theorem readMembersFrom_skipsBlanks (steps : Nat) (first : Bool) (acc : σ) :
    SkipsBlanks (f.readMembersFrom depth (steps + 1) first acc) := by
  intro gap rest
  rw [RecordFormat.readMembersFrom, RecordFormat.readMembersFrom, nextKey_skipsBlanks]

theorem readMembersFrom_member (steps : Nat) (first : Bool) (acc : σ) (m : RawMember)
    (ms : List (List Char)) (rest : List Char) :
    f.readMembersFrom depth (steps + 1) first acc
      (elementsText '}' first (m.chars :: ms) ++ rest) =
        andThen readString (fun k => andThen (f.readField depth acc k) fun next =>
          f.readMembersFrom depth steps false next)
          (m.key ++ (m.colon.chars ++ ':' :: (m.value.chars ++ (moreText '}' ms ++ rest)))) := by
  rw [RecordFormat.readMembersFrom, nextKey_member, andThen]
  cases readString (m.key ++
    (m.colon.chars ++ ':' :: (m.value.chars ++ (moreText '}' ms ++ rest)))) with
  | error fault => rfl
  | ok read =>
    obtain ⟨k, s⟩ := read
    simp only [mapRead, andThen, readField]
    cases f.field k with
    | none =>
      dsimp only
      cases hcolon : readColon s with
      | error fault => simp [andThen, hcolon]
      | ok read => cases hskip : skipValue read.2 <;> simp [andThen, hcolon, hskip]
    | some step =>
      dsimp only
      cases step acc with
      | error issue => rfl
      | ok value =>
        dsimp only
        cases hcolon : readColon s with
        | error fault => simp [andThen, hcolon]
        | ok read => cases hread : value depth read.2 <;> simp [andThen, hcolon, hread]

theorem readField_toOption (hf : f.Interprets depth) (acc : σ) (k : String) {m : RawMember}
    (hform : ValueForm m.value.text) {rest : List Char} (hrest : EndsNumber rest) :
    (f.readField depth acc k (m.colon.chars ++
      ':' :: (m.value.before.chars ++ (m.value.text ++ rest)))).toOption =
        (f.fillNamed depth k m.value.text acc).map fun next => (next, rest) := by
  rw [readField, fillNamed]
  cases hfield : f.field k with
  | none =>
    have hskip := hform.skipped m.value.before rest hrest
    rw [List.append_assoc] at hskip
    dsimp only
    rw [andThen_ok (readColon_gap _ _), hskip]
    rfl
  | some step =>
    dsimp only [fill]
    cases hstep : step acc with
    | error issue => rfl
    | ok value =>
      have hvalue := hf.field hfield hstep
      dsimp only
      rw [andThen_ok (readColon_gap _ _), hvalue.skipsBlanks,
        (hvalue.settles hform).toOption hrest]
      rfl

/-- The record of a draft, if it lacks nothing. -/
def finished (f : RecordFormat σ α) (acc? : Option σ) : Option α :=
  acc?.bind fun acc => (f.finish acc).toOption

/-- **Members are read** as the record of the draft that they leave. -/
theorem readMembersFrom_toOption (hf : f.Interprets depth) {ms : List RawMember}
    (hkeys : ∀ m ∈ ms, StringForm m.key) (hform : ∀ m ∈ ms, ValueForm m.value.text) (gap : Gap)
    (first : Bool) (acc : σ) {steps : Nat}
    (hsteps : (gap.chars ++ elementsText '}' first (ms.map RawMember.chars)).length < steps)
    (rest : List Char) :
    (f.readMembersFrom depth steps first acc
      (gap.chars ++ elementsText '}' first (ms.map RawMember.chars) ++ rest)).toOption =
        (f.finished (f.absorbAll depth (some acc) ms)).map fun x => (x, rest) := by
  obtain ⟨steps, rfl⟩ := Nat.exists_eq_succ_of_ne_zero (Nat.ne_zero_of_lt hsteps)
  rw [List.append_assoc, readMembersFrom_skipsBlanks]
  induction ms generalizing gap first acc steps with
  | nil =>
    rw [RecordFormat.readMembersFrom, List.map_nil, nextKey_none, absorbAll, List.foldl_nil,
      finished, Option.bind_some]
    dsimp only
    cases f.finish acc <;> rfl
  | cons m ms ih =>
    have hvalue := hform m List.mem_cons_self
    -- what follows the value is read with a step less
    have hlength : (m.value.after.chars ++
        elementsText '}' false (ms.map RawMember.chars)).length < steps := by
      cases first <;> simp [elementsText, moreText, RawMember.chars, Item.chars] at hsteps ⊢ <;>
        omega
    obtain ⟨steps, rfl⟩ := Nat.exists_eq_succ_of_ne_zero (Nat.ne_zero_of_lt hlength)
    have hmore (next : σ) := ih (fun n hn => hkeys n (List.mem_cons_of_mem m hn))
      (fun n hn => hform n (List.mem_cons_of_mem m hn)) m.value.after false next steps hlength
    have hcolon : EndsNumber (m.colon.chars ++
        ':' :: (m.value.chars ++ (moreText '}' (ms.map RawMember.chars) ++ rest))) :=
      m.colon.endsNumber (endsNumber_cons _ (by decide))
    have hafter : EndsNumber (m.value.after.chars ++
        (moreText '}' (ms.map RawMember.chars) ++ rest)) :=
      m.value.after.endsNumber (moreText_endsNumber (.inr rfl) _ rest)
    rw [List.map_cons, readMembersFrom_member, andThen_toOption,
      (hkeys m List.mem_cons_self).settles.toOption hcolon, absorbAll_cons, absorb,
      Option.bind_some]
    cases result? readString m.key with
    | none =>
      rw [Option.bind_none, absorbAll_none]
      rfl
    | some k =>
      rw [Option.map_some, Option.bind_some, Option.bind_some]
      dsimp only
      rw [andThen_toOption, m.value.chars_append, readField_toOption hf acc k hvalue hafter]
      cases f.fillNamed depth k m.value.text acc with
      | none =>
        rw [absorbAll_none]
        rfl
      | some next =>
        have hread := hmore next
        rw [elementsText_false] at hread
        rw [Option.map_some, Option.bind_some]
        dsimp only
        rw [readMembersFrom_skipsBlanks, hread]

/-- **An object is read** as the record of the draft that its members leave. -/
theorem read_members (hf : f.Interprets depth) {ms : List RawMember}
    (hkeys : ∀ m ∈ ms, StringForm m.key) (hform : ∀ m ∈ ms, ValueForm m.value.text) (gap : Gap)
    (rest : List Char) :
    (f.read (depth + 1)
      ('{' :: (gap.chars ++ elementsText '}' true (ms.map RawMember.chars)) ++ rest)).toOption =
        (f.finished (f.absorbAll depth (some f.empty) ms)).map fun x => (x, rest) := by
  rw [List.cons_append, read_brace]
  refine readMembersFrom_toOption hf hkeys hform gap true f.empty ?_ rest
  simp only [List.length_append]
  omega

/-! ## Reading a list of fields -/

/-- The record of a draft, at the end of the text. -/
def finishHere (f : RecordFormat σ α) (acc : σ) : Reader α := fun rest =>
  match f.finish acc with
  | .error issue => .error (.here issue rest)
  | .ok x => .ok (x, rest)

theorem finishHere_settles (acc : σ) : Settles (f.finishHere acc) [] := by
  cases h : f.finish acc with
  | error issue => exact .refuses fun rest _ => ⟨_, by rw [List.nil_append, finishHere, h]⟩
  | ok x => exact .reads x fun rest _ => by rw [List.nil_append, finishHere, h]

theorem endItems_skipsBlanks : SkipsBlanks endItems := by
  intro gap rest
  rw [endItems, endItems, gap.skipSpace_append]

/-- Behind the last field stands nothing but the closing bracket. -/
theorem endItems_refused {c : Char} (hc : isSpace c = false) (hclose : c ≠ ']') (s : List Char) :
    ∃ fault, endItems (c :: s) = .error fault := by
  rw [endItems, skipSpace_cons s hc]
  split
  · exact ⟨_, rfl⟩
  · rename_i heq
    exact absurd (List.cons.inj heq).1 hclose
  · split <;> exact ⟨_, rfl⟩
  · exact ⟨_, rfl⟩

theorem readItemsFrom_skipsBlanks (left i : Nat) (acc : σ) :
    SkipsBlanks (f.readItemsFrom depth left i acc) := by
  intro gap rest
  cases left with
  | zero => rw [RecordFormat.readItemsFrom, RecordFormat.readItemsFrom, endItems_skipsBlanks]
  | succ left =>
    rw [RecordFormat.readItemsFrom, RecordFormat.readItemsFrom, nextItem_skipsBlanks]

theorem readItemsFrom_settles (hf : f.Interprets depth) {items : List Item}
    (hform : ∀ x ∈ items, ValueForm x.text) (left i : Nat) (acc : σ) :
    Settles (f.readItemsFrom depth left i acc)
      (elementsText ']' (i == 0) (items.map Item.chars)) := by
  induction left generalizing items i acc with
  | zero =>
    cases items with
    | nil =>
      refine (f.finishHere_settles acc).congr fun rest _ => ?_
      rw [List.map_nil, elementsText_nil]
      rfl
    | cons x xs =>
      have hx := hform x List.mem_cons_self
      obtain ⟨c, cs, htext, hc⟩ := hx.start
      have hrefused (rest : List Char) : ∃ fault, endItems (elementsText ']' (i == 0)
          (x.chars :: xs.map Item.chars) ++ rest) = .error fault := by
        cases i == 0 with
        | true =>
          rw [elementsText, List.append_assoc, x.chars_append, endItems_skipsBlanks, htext]
          exact endItems_refused hc.1 hc.2 _
        | false => exact endItems_refused (by decide) (by decide) _
      refine .refuses fun rest _ => ?_
      obtain ⟨fault, hfault⟩ := hrefused rest
      exact ⟨fault, by rw [List.map_cons, RecordFormat.readItemsFrom, hfault]⟩
  | succ left ih =>
    cases items with
    | nil =>
      -- a list may end early unless a field that it may not lack is left
      cases hleft : f.firstRequired (left + 1) i with
      | some j =>
        refine .refuses fun rest _ => ?_
        rw [List.map_nil, RecordFormat.readItemsFrom, nextItem_none]
        simp only [hleft]
        exact ⟨_, rfl⟩
      | none =>
        refine (f.finishHere_settles acc).congr fun rest _ => ?_
        rw [List.map_nil, RecordFormat.readItemsFrom, nextItem_none]
        simp only [hleft]
        rfl
    | cons x xs =>
      have hx := hform x List.mem_cons_self
      have hmore (next : σ) : Settles (f.readItemsFrom depth left (i + 1) next)
          (x.after.chars ++ moreText ']' (xs.map Item.chars)) := by
        have hread := ih (fun y hy => hform y (List.mem_cons_of_mem x hy)) (i + 1) next
        rw [show (i + 1 == 0) = false from rfl, elementsText_false] at hread
        exact hread.gap (readItemsFrom_skipsBlanks left (i + 1) next) x.after
      have hends (rest : List Char) (_ : EndsNumber rest) :
          EndsNumber (x.after.chars ++ moreText ']' (xs.map Item.chars) ++ rest) := by
        rw [List.append_assoc]
        exact x.after.endsNumber (moreText_endsNumber (.inl rfl) _ rest)
      refine ((hf.item i acc hx).andThen hends hmore).congr fun rest _ => ?_
      have hjoin : x.text ++ (x.after.chars ++ moreText ']' (xs.map Item.chars)) ++ rest =
          x.text ++ (x.after.chars ++ (moreText ']' (xs.map Item.chars) ++ rest)) := by
        rw [List.append_assoc, List.append_assoc]
      rw [hjoin, List.map_cons, RecordFormat.readItemsFrom, nextItem_item _ hx]
      rfl

/-! ## Reading a record -/

theorem read_skipsBlanks (depth : Nat) : SkipsBlanks (f.read depth) := by
  intro gap rest
  rw [RecordFormat.read, RecordFormat.read, gap.skipSpace_append]

/-- **Records are interpreted.** -/
theorem readsValues_record (hf : ∀ depth, f.Interprets depth) (depth : Nat) :
    ReadsValues (f.read depth) where
  skipsBlanks := read_skipsBlanks depth
  settles hv := by
    obtain ⟨c, cs, rfl, hc⟩ := hv.start
    by_cases hlist : c = '['
    · subst hlist
      obtain ⟨gap, items, hform, rfl⟩ := hv.of_bracket
      cases depth with
      | zero => exact .refuses fun rest _ => ⟨_, rfl⟩
      | succ depth =>
        refine ((readItemsFrom_settles (hf depth) hform f.size 0 f.empty).gap
          (readItemsFrom_skipsBlanks _ _ _) gap).congr fun rest _ => ?_
        rfl
    by_cases hobject : c = '{'
    · subst hobject
      obtain ⟨gap, ms, hkeys, hform, rfl⟩ := hv.of_brace
      cases depth with
      | zero => exact .refuses fun rest _ => ⟨_, rfl⟩
      | succ depth => exact .of_toOption fun rest _ => read_members (hf depth) hkeys hform gap rest
    · refine .refuses fun rest _ => ?_
      rw [List.cons_append, RecordFormat.read, skipSpace_cons _ hc.1]
      dsimp only
      rw [if_neg hlist, if_neg hobject]
      exact ⟨_, rfl⟩

end RecordFormat
end Json
end LaneBus
