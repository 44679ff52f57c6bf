import LaneBus.Envelope.Wire
import LaneBus.Proofs.Records
import LaneBus.Proofs.Timestamps

/-! # Reading back envelopes

An envelope of values is sound when its times are valid and its values are sound
(`Envelope.Sound`).  Whatever can be read is sound, and nests no deeper than a text
may (`decode_sound`).  Conversely the text of a sound envelope is read back as long
as it nests no deeper (`decode_text`), and is refused when it does
(`decode_tooDeep`).  So nothing but nesting comes between a sound envelope and its
readers, and the nesting of an envelope is one more than that of what it carries
(`nesting_eq`).
-/
namespace LaneBus

open Json

/-! ## Texts -/

theorem readText_chars (s : String) (rest : List Char) :
    readText ((Value.string s).chars ++ rest) = .ok (s, rest) := by
  change readString (stringTail s.toList ++ rest) = _
  exact readString_stringTail s rest

theorem readOptional_cons {α : Type} (item : Reader α) {c : Char} (rest : List Char)
    (hspace : isSpace c = false) (hnull : c ≠ 'n') :
    readOptional item (c :: rest) = mapRead some (item (c :: rest)) := by
  rw [readOptional, skipSpace_cons rest hspace]
  split
  · rename_i heq
    cases heq
    exact absurd rfl hnull
  · rfl

theorem readOptional_string {α : Type} (item : Reader α) (s : String) (rest : List Char) :
    readOptional item ((Value.string s).chars ++ rest) =
      mapRead some (item ((Value.string s).chars ++ rest)) :=
  readOptional_cons item _ (by decide) (by decide)

theorem Timestamp.read_chars {t : Timestamp} (h : t.Valid) (rest : List Char) :
    Timestamp.read ((Value.string t.text).chars ++ rest) = .ok (t, rest) := by
  change Timestamp.read ('"' :: (stringTail t.text.toList ++ rest)) = _
  unfold Timestamp.read
  rw [skipSpace_cons _ (show isSpace '"' = false by decide)]
  simp only [readString_stringTail, Timestamp.parse_text h]

theorem Timestamp.read_valid {s rest : List Char} {t : Timestamp}
    (h : Timestamp.read s = .ok (t, rest)) : t.Valid := by
  unfold Timestamp.read at h
  split at h
  · cases h
  · split at h
    · cases h
    · split at h
      · cases h
      · rename_i hparse
        cases h
        exact Timestamp.parse_valid hparse
  · cases h

theorem readOptional_ok {β : Type} {item : Reader β} {s rest : List Char} {x : β}
    (h : readOptional item s = .ok (some x, rest)) : ∃ s', item s' = .ok (x, rest) := by
  unfold readOptional at h
  split at h
  · obtain ⟨_, _, heq⟩ := mapRead_ok h
    cases heq
  · obtain ⟨y, hread, heq⟩ := mapRead_ok h
    cases heq
    exact ⟨_, hread⟩

/-! ## Failure details -/

namespace ErrorDetails

theorem fills (e : ErrorDetails) (depth : Nat) :
    RecordFormat.Fills format depth {}
      [("error", .string e.kind), ("msg", .string e.message), ("stacktrace", .string e.trace)]
      { kind := some e.kind, message := some e.message, trace := some e.trace } := by
  refine .cons { kind := some e.kind } rfl rfl ?_
    (.cons { kind := some e.kind, message := some e.message } rfl rfl ?_
      (.cons _ rfl rfl ?_ (.nil _)))
  · intro rest hrest
    change mapRead _ (readText _) = _
    rw [readText_chars, mapRead]
  · intro rest hrest
    change mapRead _ (readText _) = _
    rw [readText_chars, mapRead]
  · intro rest hrest
    change mapRead _ (readText _) = _
    rw [readText_chars, mapRead]

/-- Failure details are read back. -/
theorem read_toValue (e : ErrorDetails) (depth : Nat) (rest : List Char) :
    RecordFormat.read format (depth + 1) (e.toValue.chars ++ rest) = .ok (e, rest) :=
  RecordFormat.read_object (e.fills depth) rfl rest

end ErrorDetails

/-! ## Envelopes of values -/

namespace Envelope

/-- An envelope of values as a value. -/
def toValue (e : Envelope Value Value) : Value := .object (e.members e.input e.payload)

/-- An envelope of values can always be written. -/
theorem toJson_eq (e : Envelope Value Value) : Encode.toJson e = .ok e.toValue := by
  obtain ⟨createdAt, consumedAt, pluginName, pluginVersion, host, input, payload, err⟩ := e
  cases input <;> cases payload <;> rfl

theorem encode_eq (e : Envelope Value Value) : encode e = .ok e.toValue.text := by
  rw [encode, toJson_eq]
  rfl

/-- How deep the brackets of an envelope nest. -/
def nesting (e : Envelope Value Value) : Nat := e.toValue.nesting

/-- An envelope that some text stands for. -/
structure Sound (e : Envelope Value Value) : Prop where
  created : e.createdAt.Valid
  consumed : ∀ t, e.consumedAt = some t → t.Valid
  input : ∀ v, e.input = some v → v.Sound
  payload : ∀ v, e.payload = some v → v.Sound

/-- The envelope that is read for the text of an envelope. -/
def reread (e : Envelope Value Value) : Envelope Value Value :=
  { e with
    input := e.input.map Value.reread
    payload := e.payload.map Value.reread }

/-- The draft of all that comes before the input of an envelope. -/
def headDraft (e : Envelope Value Value) : Draft Value Value where
  createdAt := some e.createdAt
  consumedAt := e.consumedAt.map some
  pluginName := e.pluginName.map some
  pluginVersion := e.pluginVersion.map some
  host := e.host.map some

/-- The members that come before the input of an envelope. -/
def headMembers (e : Envelope Value Value) : List (String × Value) :=
  ("created_at", .string e.createdAt.text) ::
    (member "consumed_at" (e.consumedAt.map fun t => .string t.text) ++
      member "plugin_name" (e.pluginName.map .string) ++
      member "plugin_version" (e.pluginVersion.map .string) ++
      member "host" (e.host.map .string))

variable {e : Envelope Value Value} {depth : Nat}

theorem members_eq (e : Envelope Value Value) :
    e.members e.input e.payload = e.headMembers ++ (member "input" e.input ++
      (member "payload" e.payload ++ member "err" (e.err.map ErrorDetails.toValue))) := by
  simp only [members, headMembers, List.cons_append, List.append_assoc]

theorem fills_head (h : e.Sound) :
    RecordFormat.Fills (format Value Value) depth {} e.headMembers e.headDraft := by
  have hname (s : String) (rest : List Char) :
      readOptional readText ((Value.string s).chars ++ rest) = .ok (some s, rest) := by
    rw [readOptional_string, readText_chars, mapRead]
  refine .cons { createdAt := some e.createdAt } rfl rfl ?_ (.append (.append (.append
    (RecordFormat.fills_slot e.consumedAt (fun t => .string t.text) some
      (fun c => { createdAt := some e.createdAt, consumedAt := c }) rfl rfl rfl (fun _ => rfl) ?_)
    (RecordFormat.fills_slot e.pluginName .string some
      (fun n => { createdAt := some e.createdAt, consumedAt := e.consumedAt.map some,
                  pluginName := n }) rfl rfl rfl (fun _ => rfl) ?_))
    (RecordFormat.fills_slot e.pluginVersion .string some
      (fun v => { createdAt := some e.createdAt, consumedAt := e.consumedAt.map some,
                  pluginName := e.pluginName.map some, pluginVersion := v })
      rfl rfl rfl (fun _ => rfl) ?_))
    (RecordFormat.fills_slot e.host .string some
      (fun n => { e.headDraft with host := n }) rfl rfl rfl (fun _ => rfl) ?_))
  · intro rest hrest
    change mapRead _ (Timestamp.read _) = _
    rw [Timestamp.read_chars h.created, mapRead]
  · intro t ht rest hrest
    rw [readOptional_string, Timestamp.read_chars (h.consumed t ht), mapRead]
  · intro s hs rest hrest
    exact hname s rest
  · intro s hs rest hrest
    exact hname s rest
  · intro s hs rest hrest
    exact hname s rest

/-! ## What an envelope nests -/

theorem mem_member {name : String} {value : Option Value} {m : String × Value} :
    m ∈ member name value ↔ ∃ v, value = some v ∧ m = (name, v) := by
  cases value with
  | none => simp [member]
  | some v => simp [member]

theorem membersNesting_member (name : String) (value : Option Value) :
    Value.membersNesting (member name value) = value.elim 0 Value.nesting := by
  cases value with
  | none => rfl
  | some v => exact Nat.max_zero _

/-- Nothing nests before the input. -/
theorem headMembers_nesting (e : Envelope Value Value) :
    Value.membersNesting e.headMembers = 0 := by
  have hflat {α : Type} (x : Option α) (text : α → String) :
      (x.map fun y => Value.string (text y)).elim 0 Value.nesting = 0 := by
    cases x <;> rfl
  simp only [headMembers, Value.membersNesting, Value.membersNesting_append, membersNesting_member,
    hflat, Value.nesting, Nat.max_self]

/-- The brackets of an envelope nest one deeper than those of its input, its payload
and its failure details. -/
theorem nesting_eq (e : Envelope Value Value) : e.nesting =
    max (e.input.elim 0 Value.nesting)
      (max (e.payload.elim 0 Value.nesting) (if e.err.isSome then 1 else 0)) + 1 := by
  have herr : (e.err.map ErrorDetails.toValue).elim 0 Value.nesting =
      if e.err.isSome then 1 else 0 := by
    cases e.err <;> rfl
  rw [nesting, toValue, Value.nesting, members_eq, Value.membersNesting_append,
    Value.membersNesting_append, Value.membersNesting_append, headMembers_nesting,
    membersNesting_member, membersNesting_member, membersNesting_member, herr, Nat.zero_max]

theorem elim_nesting_le_iff {x : Option Value} :
    x.elim 0 Value.nesting ≤ depth ↔ ∀ v, x = some v → v.nesting ≤ depth := by
  cases x <;> simp

theorem nesting_le_iff : e.nesting ≤ depth + 1 ↔
    (∀ v, e.input = some v → v.nesting ≤ depth) ∧ (∀ v, e.payload = some v → v.nesting ≤ depth) ∧
      (e.err.isSome = true → 1 ≤ depth) := by
  have herr : (if e.err.isSome then 1 else 0) ≤ depth ↔ (e.err.isSome = true → 1 ≤ depth) := by
    split <;> simp_all
  rw [nesting_eq, Nat.add_le_add_iff_right, Nat.max_le, Nat.max_le, elim_nesting_le_iff,
    elim_nesting_le_iff, herr]

theorem member_keys_sublist (name : String) (value : Option Value) :
    ((member name value).map Prod.fst).Sublist [name] := by
  cases value with
  | none => exact List.nil_sublist _
  | some v => exact List.Sublist.refl _

/-- No field comes twice. -/
theorem members_keys_nodup (e : Envelope Value Value) :
    ((e.members e.input e.payload).map Prod.fst).Nodup := by
  have hsublist : ((e.members e.input e.payload).map Prod.fst).Sublist fieldNames := by
    simp only [members, List.map_cons, List.map_append]
    refine List.Sublist.cons_cons _ ?_
    exact ((((((member_keys_sublist _ _).append (member_keys_sublist _ _)).append
      (member_keys_sublist _ _)).append (member_keys_sublist _ _)).append
      (member_keys_sublist _ _)).append (member_keys_sublist _ _)).append
      (member_keys_sublist _ _)
  exact hsublist.nodup (by decide)

/-- What holds of texts, of failure details, and of the input and the payload holds of the values
of all members. -/
theorem forall_members {P : Value → Prop} (htext : ∀ s, P (.string s))
    (hdetails : ∀ d : ErrorDetails, P d.toValue) (hinput : ∀ v, e.input = some v → P v)
    (hpayload : ∀ v, e.payload = some v → P v) : ∀ m ∈ e.members e.input e.payload, P m.2 := by
  intro m hm
  simp only [members, List.mem_cons, List.mem_append, mem_member, Option.map_eq_some_iff] at hm
  rcases hm with rfl | (((((⟨v, ⟨t, -, rfl⟩, rfl⟩ | ⟨v, ⟨t, -, rfl⟩, rfl⟩) |
    ⟨v, ⟨t, -, rfl⟩, rfl⟩) | ⟨v, ⟨t, -, rfl⟩, rfl⟩) | ⟨v, hv, rfl⟩) | ⟨v, hv, rfl⟩) |
    ⟨v, ⟨d, -, rfl⟩, rfl⟩
  · exact htext _
  · exact htext _
  · exact htext _
  · exact htext _
  · exact htext _
  · exact hinput v hv
  · exact hpayload v hv
  · exact hdetails d

theorem toValue_sound (h : e.Sound) : e.toValue.Sound := by
  rw [toValue, Value.Sound, Value.soundMembers_iff]
  refine ⟨members_keys_nodup e, forall_members (fun _ => trivial) ?_ h.input h.payload⟩
  intro d
  refine ⟨?_, trivial, trivial, trivial, trivial⟩
  show ["error", "msg", "stacktrace"].Nodup
  decide

/-! ## Reading back -/

theorem fills_input (h : e.Sound) (hinput : ∀ v, e.input = some v → v.nesting ≤ depth) :
    RecordFormat.Fills (format Value Value) depth e.headDraft (member "input" e.input)
      { e.headDraft with input := e.input.map Value.reread } := by
  have hfills : RecordFormat.Fills (format Value Value) depth e.headDraft
      (member "input" (e.input.map id)) { e.headDraft with input := e.input.map Value.reread } := by
    apply RecordFormat.fills_slot e.input id Value.reread
      (fun v => ({ e.headDraft with input := v } : Draft Value Value))
    · rfl
    · rfl
    · rfl
    · intro v
      rfl
    · intro v hv rest hrest
      exact readValue_chars (h.input v hv) (hinput v hv) rest hrest
  rwa [Option.map_id] at hfills

/-- The draft of all that comes before the payload of an envelope. -/
def inputDraft (e : Envelope Value Value) : Draft Value Value :=
  { e.headDraft with input := e.input.map Value.reread }

theorem fills_payload (h : e.Sound) (hpayload : ∀ v, e.payload = some v → v.nesting ≤ depth) :
    RecordFormat.Fills (format Value Value) depth e.inputDraft (member "payload" e.payload)
      { e.inputDraft with payload := e.payload.map Value.reread } := by
  have hfills : RecordFormat.Fills (format Value Value) depth e.inputDraft
      (member "payload" (e.payload.map id))
      { e.inputDraft with payload := e.payload.map Value.reread } := by
    apply RecordFormat.fills_slot e.payload id Value.reread
      (fun v => ({ e.inputDraft with payload := v } : Draft Value Value))
    · rfl
    · rfl
    · rfl
    · intro v
      rfl
    · intro v hv rest hrest
      exact readValue_chars (h.payload v hv) (hpayload v hv) rest hrest
  rwa [Option.map_id] at hfills

theorem fills_err (herr : e.err.isSome = true → 1 ≤ depth) :
    RecordFormat.Fills (format Value Value) depth
      { e.inputDraft with payload := e.payload.map Value.reread }
      (member "err" (e.err.map ErrorDetails.toValue))
      { e.inputDraft with
        payload := e.payload.map Value.reread
        err := e.err.map some } := by
  apply RecordFormat.fills_slot e.err ErrorDetails.toValue some
    (fun x => ({ e.inputDraft with
      payload := e.payload.map Value.reread
      err := x } : Draft Value Value))
  · rfl
  · rfl
  · rfl
  · intro x
    rfl
  · intro x hx rest hrest
    obtain ⟨d, rfl⟩ : ∃ d, depth = d + 1 := Nat.exists_eq_add_of_le' (herr (by rw [hx]; rfl))
    have hread : RecordFormat.read ErrorDetails.format (d + 1) (x.toValue.chars ++ rest) =
        .ok (x, rest) := x.read_toValue d rest
    rw [ErrorDetails.toValue, Value.chars, List.cons_append] at hread ⊢
    change readOptional (RecordFormat.read ErrorDetails.format (d + 1)) _ = _
    rw [readOptional_cons _ _ (by decide) (by decide), hread, mapRead]

theorem join_map_some {α : Type} (x : Option α) : (x.map some).join = x := by
  cases x <;> rfl

/-- **A sound envelope is read back** when its brackets nest no deeper than allowed. -/
theorem read_toValue (h : e.Sound) (hn : e.nesting ≤ depth + 1) (rest : List Char) :
    RecordFormat.read (format Value Value) (depth + 1) (e.toValue.chars ++ rest) =
      .ok (e.reread, rest) := by
  obtain ⟨hinput, hpayload, herr⟩ := nesting_le_iff.1 hn
  have hfills := (fills_head h).append ((fills_input h hinput).append
    ((fills_payload h hpayload).append (fills_err herr)))
  rw [← members_eq] at hfills
  refine RecordFormat.read_object hfills ?_ rest
  simp only [format, inputDraft, headDraft, join_map_some]
  rfl

/-- **The text of a sound envelope is refused** when its brackets nest deeper than
allowed. -/
theorem read_tooDeep (h : e.Sound) (hdepth : 1 ≤ depth) (hn : depth + 1 < e.nesting)
    (rest : List Char) : ∃ fault,
      RecordFormat.read (format Value Value) (depth + 1) (e.toValue.chars ++ rest) =
        .error fault := by
  have hhead : RecordFormat.Fills (format Value Value) depth {} e.headMembers e.headDraft :=
    fills_head h
  rw [toValue, members_eq]
  -- the input comes first, so the payload is only reached when the input is read back
  by_cases hinput : ∀ v, e.input = some v → v.nesting ≤ depth
  · by_cases hpayload : ∀ v, e.payload = some v → v.nesting ≤ depth
    · exact absurd (nesting_le_iff.2 ⟨hinput, hpayload, fun _ => hdepth⟩) (Nat.not_le.2 hn)
    · obtain ⟨v, hv, hdeep⟩ : ∃ v, e.payload = some v ∧ depth < v.nesting := by
        by_contra hnone
        exact hpayload fun v hv => Nat.not_lt.1 fun hlt => hnone ⟨v, hv, hlt⟩
      have hbefore := hhead.append (fills_input h hinput)
      rw [hv, ← List.append_assoc]
      refine RecordFormat.read_refused (k := "payload") (v := v) hbefore rfl rfl ?_ rest
      intro rest hrest
      exact mapRead_error _ (readValue_tooDeep (h.payload v hv) hdeep rest hrest)
  · obtain ⟨v, hv, hdeep⟩ : ∃ v, e.input = some v ∧ depth < v.nesting := by
      by_contra hnone
      exact hinput fun v hv => Nat.not_lt.1 fun hlt => hnone ⟨v, hv, hlt⟩
    rw [hv]
    refine RecordFormat.read_refused (k := "input") (v := v) hhead rfl rfl ?_ rest
    intro rest hrest
    exact mapRead_error _ (readValue_tooDeep (h.input v hv) hdeep rest hrest)

/-! ## Only sound envelopes are read -/

/-- An entry of a draft is as it was, or has been set to something that was read. -/
def KeptOr {β : Type} (read : β → Prop) (before after : Option β) : Prop :=
  after = before ∨ ∃ x, read x ∧ after = some x

theorem KeptOr.holds {β : Type} {read P : β → Prop} {before after : Option β}
    (h : KeptOr read before after) (hbefore : ∀ x, before = some x → P x)
    (hread : ∀ x, read x → P x) : ∀ x, after = some x → P x := by
  intro x hx
  rcases h with hsame | ⟨y, hy, hnew⟩
  · exact hbefore x (hsame ▸ hx)
  · obtain rfl : y = x := Option.some.inj (hnew.symm.trans hx)
    exact hread y hy

/-- A value was read from a text that may open some brackets. -/
def ReadFrom (depth : Nat) (v : Value) : Prop := ∃ s rest, readValue depth s = .ok (v, rest)

/-- A field has been read into a draft. -/
structure Draft.Reads (depth : Nat) (acc next : Draft Value Value) : Prop where
  created : KeptOr Timestamp.Valid acc.createdAt next.createdAt
  consumed : KeptOr (fun x => ∀ t, x = some t → t.Valid) acc.consumedAt next.consumedAt
  input : KeptOr (ReadFrom depth) acc.input next.input
  payload : KeptOr (ReadFrom depth) acc.payload next.payload

/-- **What one field can do to a draft.** -/
theorem fieldStep_reads {name : String} {i : Nat} {acc next : Draft Value Value}
    {reader : Nat → Reader (Draft Value Value)} {s rest : List Char}
    (hstep : fieldStep name i acc = .ok reader) (hread : reader depth s = .ok (next, rest)) :
    acc.Reads depth next := by
  unfold fieldStep at hstep
  split at hstep
  · obtain ⟨t, ht, rfl⟩ := RecordFormat.slot_ok hstep hread
    exact ⟨.inr ⟨t, Timestamp.read_valid ht, rfl⟩, .inl rfl, .inl rfl, .inl rfl⟩
  · obtain ⟨x, hx, rfl⟩ := RecordFormat.slot_ok hstep hread
    refine ⟨.inl rfl, .inr ⟨x, ?_, rfl⟩, .inl rfl, .inl rfl⟩
    rintro t rfl
    obtain ⟨s', hs'⟩ := readOptional_ok hx
    exact Timestamp.read_valid hs'
  · obtain ⟨x, -, rfl⟩ := RecordFormat.slot_ok hstep hread
    exact ⟨.inl rfl, .inl rfl, .inl rfl, .inl rfl⟩
  · obtain ⟨x, -, rfl⟩ := RecordFormat.slot_ok hstep hread
    exact ⟨.inl rfl, .inl rfl, .inl rfl, .inl rfl⟩
  · obtain ⟨x, -, rfl⟩ := RecordFormat.slot_ok hstep hread
    exact ⟨.inl rfl, .inl rfl, .inl rfl, .inl rfl⟩
  · obtain ⟨v, hv, rfl⟩ := RecordFormat.slot_ok hstep hread
    exact ⟨.inl rfl, .inl rfl, .inr ⟨v, ⟨_, _, hv⟩, rfl⟩, .inl rfl⟩
  · obtain ⟨v, hv, rfl⟩ := RecordFormat.slot_ok hstep hread
    exact ⟨.inl rfl, .inl rfl, .inl rfl, .inr ⟨v, ⟨_, _, hv⟩, rfl⟩⟩
  · obtain ⟨x, -, rfl⟩ := RecordFormat.slot_ok hstep hread
    exact ⟨.inl rfl, .inl rfl, .inl rfl, .inl rfl⟩

/-- What is kept by every field holds of the draft that an envelope is made of. -/
theorem read_draft {I : Draft Value Value → Prop} (hempty : I {})
    (hreads : ∀ {acc next}, I acc → acc.Reads depth next → I next) {s rest : List Char}
    (h : RecordFormat.read (format Value Value) (depth + 1) s = .ok (e, rest)) :
    ∃ d, I d ∧ d.createdAt = some e.createdAt ∧ e.consumedAt = d.consumedAt.join ∧
      e.input = d.input ∧ e.payload = d.payload := by
  obtain ⟨d, hd, hfinish⟩ := RecordFormat.read_invariant (I := I) hempty
    (fun {k step acc value s next rest} hfield hacc hstep hread => by
      simp only [format] at hfield
      split at hfield
      · cases hfield
        exact hreads hacc (fieldStep_reads hstep hread)
      · cases hfield)
    (fun {i acc s next rest} hacc hread => by
      simp only [format] at hread
      split at hread
      · cases hread
      · rename_i hstep
        exact hreads hacc (fieldStep_reads hstep hread)) h
  simp only [format] at hfinish
  split at hfinish
  · cases hfinish
  · rename_i t ht
    cases hfinish
    exact ⟨d, hd, ht, rfl, rfl, rfl⟩

/-- What an envelope that was read carries was read as well. -/
theorem read_values {s rest : List Char}
    (h : RecordFormat.read (format Value Value) (depth + 1) s = .ok (e, rest)) :
    (∀ v, e.input = some v → ReadFrom depth v) ∧ ∀ v, e.payload = some v → ReadFrom depth v := by
  let I (d : Draft Value Value) : Prop :=
    (∀ v, d.input = some v → ReadFrom depth v) ∧ ∀ v, d.payload = some v → ReadFrom depth v
  have hempty : I {} := ⟨fun v hv => (by cases hv), fun v hv => (by cases hv)⟩
  obtain ⟨d, hd, -, -, hinput, hpayload⟩ := read_draft hempty
    (fun {acc next} hacc hreads => ⟨hreads.input.holds hacc.1 fun _ => id,
      hreads.payload.holds hacc.2 fun _ => id⟩) h
  rw [hinput, hpayload]
  exact hd

/-- The times of an envelope that was read are valid. -/
theorem read_times {s rest : List Char}
    (h : RecordFormat.read (format Value Value) (depth + 1) s = .ok (e, rest)) :
    e.createdAt.Valid ∧ ∀ t, e.consumedAt = some t → t.Valid := by
  let I (d : Draft Value Value) : Prop :=
    (∀ t, d.createdAt = some t → t.Valid) ∧ ∀ x, d.consumedAt = some x → ∀ t, x = some t → t.Valid
  have hempty : I {} := ⟨fun t ht => (by cases ht), fun x hx => (by cases hx)⟩
  obtain ⟨d, hd, hcreated, hconsumed, -⟩ := read_draft hempty
    (fun {acc next} hacc hreads => ⟨hreads.created.holds hacc.1 fun _ => id,
      hreads.consumed.holds hacc.2 fun _ => id⟩) h
  refine ⟨hd.1 _ hcreated, fun t ht => ?_⟩
  rw [hconsumed] at ht
  exact hd.2 _ (Option.join_eq_some_iff.1 ht) t rfl

/-- **Only sound envelopes are read**, of brackets that nest no deeper than allowed. -/
theorem read_sound (hdepth : 1 ≤ depth) {s rest : List Char}
    (h : RecordFormat.read (format Value Value) (depth + 1) s = .ok (e, rest)) :
    e.Sound ∧ e.nesting ≤ depth + 1 := by
  obtain ⟨hcreated, hconsumed⟩ := read_times h
  obtain ⟨hinput, hpayload⟩ := read_values h
  have hsound (v : Value) (hv : ReadFrom depth v) : v.Sound ∧ v.nesting ≤ depth := by
    obtain ⟨s, rest, hread⟩ := hv
    exact readValue_sound hread
  refine ⟨⟨hcreated, hconsumed, fun v hv => (hsound v (hinput v hv)).1,
    fun v hv => (hsound v (hpayload v hv)).1⟩, ?_⟩
  exact nesting_le_iff.2 ⟨fun v hv => (hsound v (hinput v hv)).2,
    fun v hv => (hsound v (hpayload v hv)).2, fun _ => hdepth⟩

/-! ## Whole texts -/

/-- **What can be read is sound**, and its brackets nest no deeper than a text may. -/
theorem decode_sound {text : String} (h : decode (Envelope Value Value) text = .ok e) :
    e.Sound ∧ e.nesting ≤ maxDepth := by
  obtain ⟨rest, hread⟩ := decode_read h
  exact read_sound (by decide) hread

/-- **A sound envelope can be read** as long as its brackets nest no deeper than a text
may. -/
theorem decode_text (h : e.Sound) (hn : e.nesting ≤ maxDepth) :
    decode (Envelope Value Value) e.toValue.text = .ok e.reread := by
  have hread := read_toValue h hn []
  rw [List.append_nil] at hread
  exact decode_of_read hread

/-- The text of a sound envelope **cannot be read** when its brackets nest deeper. -/
theorem decode_tooDeep (h : e.Sound) (hn : maxDepth < e.nesting) :
    ∃ reason, decode (Envelope Value Value) e.toValue.text = .error reason := by
  obtain ⟨fault, hfault⟩ := read_tooDeep h (by decide) hn []
  rw [List.append_nil] at hfault
  have hread : (Decode.read maxDepth e.toValue.chars : Except Fault (Envelope Value Value × _)) =
      Except.error fault := hfault
  unfold decode
  simp only
  rw [chars_toList, hread]
  exact ⟨_, rfl⟩

/-- What is read for the text of a sound envelope, if anything is. -/
theorem decode_text_ok {e' : Envelope Value Value} (h : e.Sound)
    (hread : decode (Envelope Value Value) e.toValue.text = .ok e') :
    e.nesting ≤ maxDepth ∧ e' = e.reread := by
  by_cases hn : e.nesting ≤ maxDepth
  · rw [decode_text h hn] at hread
    exact ⟨hn, (Except.ok.inj hread).symm⟩
  · obtain ⟨reason, hrefused⟩ := decode_tooDeep h (Nat.not_le.1 hn)
    rw [hrefused] at hread
    cases hread

end Envelope
end LaneBus
