import LaneBus.Proofs.Envelopes

/-! # Envelopes survive the wire

Values are maps: their objects list their members in key order (`Value.Canonical`).  So
whatever is read is canonical (`readValue_canonical`), and a canonical value whose numbers
are integers of 64 bits is read back as it is (`Value.reread_of_whole`); only
floating-point numbers could come back changed.

**Envelopes survive the wire** (`Envelope.Built.read_back`).  Whatever way an envelope was
built (`Envelope.Built`), when its numbers are such integers and it nests no deeper than a
text may, then it can be written, and the text is read back as the same envelope.  So a
field that is absent stays absent, and a null that is present stays present.  And the text
is that of an object which has a member for every field that is populated and for no other.
-/
namespace LaneBus

open Json

namespace Json
namespace Value

/-! ## What holds of all parts of a value -/

variable {P P' : Number → Prop} {Q Q' : List (String × Value) → Prop}

mutual
/-- Every number of a value is of one kind, and so are the members of every object. -/
def Every (P : Number → Prop) (Q : List (String × Value) → Prop) : Value → Prop
  | .number n => P n
  | .array items => EveryItem P Q items
  | .object members => Q members ∧ EveryMember P Q members
  | _ => True

/-- The parts of some items are of some kind. -/
def EveryItem (P : Number → Prop) (Q : List (String × Value) → Prop) : List Value → Prop
  | [] => True
  | x :: xs => Every P Q x ∧ EveryItem P Q xs

/-- The parts of the values of some members are of some kind. -/
def EveryMember (P : Number → Prop) (Q : List (String × Value) → Prop) :
    List (String × Value) → Prop
  | [] => True
  | (_, x) :: xs => Every P Q x ∧ EveryMember P Q xs
end

theorem everyItem_iff {items : List Value} :
    EveryItem P Q items ↔ ∀ x ∈ items, x.Every P Q := by
  induction items with
  | nil => simp [EveryItem]
  | cons x xs ih => simp [EveryItem, ih]

theorem everyMember_iff {members : List (String × Value)} :
    EveryMember P Q members ↔ ∀ m ∈ members, m.2.Every P Q := by
  induction members with
  | nil => simp [EveryMember]
  | cons m ms ih =>
    obtain ⟨k, x⟩ := m
    simp [EveryMember, ih]

mutual
/-- Two kinds are one. -/
theorem Every.and : ∀ {v : Value}, v.Every P Q → v.Every P' Q' →
    v.Every (fun n => P n ∧ P' n) (fun ms => Q ms ∧ Q' ms)
  | .null, _, _ => trivial
  | .bool _, _, _ => trivial
  | .number _, h, h' => ⟨h, h'⟩
  | .string _, _, _ => trivial
  | .array items, h, h' => by
    rw [Every] at h h' ⊢
    exact EveryItem.and h h'
  | .object members, h, h' => by
    rw [Every] at h h' ⊢
    exact ⟨⟨h.1, h'.1⟩, EveryMember.and h.2 h'.2⟩

theorem EveryItem.and : ∀ {items : List Value}, EveryItem P Q items → EveryItem P' Q' items →
    EveryItem (fun n => P n ∧ P' n) (fun ms => Q ms ∧ Q' ms) items
  | [], _, _ => trivial
  | _ :: _, h, h' => by
    rw [EveryItem] at h h' ⊢
    exact ⟨Every.and h.1 h'.1, EveryItem.and h.2 h'.2⟩

theorem EveryMember.and : ∀ {members : List (String × Value)}, EveryMember P Q members →
    EveryMember P' Q' members →
      EveryMember (fun n => P n ∧ P' n) (fun ms => Q ms ∧ Q' ms) members
  | [], _, _ => trivial
  | (_, _) :: _, h, h' => by
    rw [EveryMember] at h h' ⊢
    exact ⟨Every.and h.1 h'.1, EveryMember.and h.2 h'.2⟩
end

mutual
theorem Every.sound (hP : ∀ n, P n → n.Sound) (hQ : ∀ ms, Q ms → (ms.map Prod.fst).Nodup) :
    ∀ {v : Value}, v.Every P Q → v.Sound
  | .null, _ => trivial
  | .bool _, _ => trivial
  | .number n, h => hP n h
  | .string _, _ => trivial
  | .array items, h => by
    rw [Every] at h
    exact EveryItem.sound hP hQ h
  | .object members, h => by
    rw [Every] at h
    exact ⟨hQ members h.1, EveryMember.sound hP hQ h.2⟩

theorem EveryItem.sound (hP : ∀ n, P n → n.Sound) (hQ : ∀ ms, Q ms → (ms.map Prod.fst).Nodup) :
    ∀ {items : List Value}, EveryItem P Q items → SoundItems items
  | [], _ => trivial
  | _ :: _, h => by
    rw [EveryItem] at h
    exact ⟨Every.sound hP hQ h.1, EveryItem.sound hP hQ h.2⟩

theorem EveryMember.sound (hP : ∀ n, P n → n.Sound)
    (hQ : ∀ ms, Q ms → (ms.map Prod.fst).Nodup) :
    ∀ {members : List (String × Value)}, EveryMember P Q members → SoundMembers members
  | [], _ => trivial
  | (_, _) :: _, h => by
    rw [EveryMember] at h
    exact ⟨Every.sound hP hQ h.1, EveryMember.sound hP hQ h.2⟩
end

/-! ## Normal values -/

/-- Members in key order are not moved. -/
theorem sortMembers_of_ordered {members : List (String × Value)} (h : Ordered members) :
    sortMembers members = members := by
  have hasymm (a b : String × Value) : a.1 < b.1 → b.1 < a.1 → a = b := by
    intro hlt hgt
    exact absurd hgt (String.lt_asymm hlt)
  exact (sortMembers_perm h.nodup).eq_of_pairwise (fun a b _ _ => hasymm a b)
    (sortMembers_ordered members) h

mutual
/-- A value whose objects are in key order is its own normal form, if its numbers do not
change. -/
theorem Every.normalize_eq {g : Number → Number} (hP : ∀ n, P n → g n = n)
    (hQ : ∀ ms, Q ms → Ordered ms) : ∀ {v : Value}, v.Every P Q → v.normalize g = v
  | .null, _ => rfl
  | .bool _, _ => rfl
  | .number n, h => by rw [normalize, hP n h]
  | .string _, _ => rfl
  | .array items, h => by
    rw [Every] at h
    rw [normalize, EveryItem.normalize_eq hP hQ h]
  | .object members, h => by
    rw [Every] at h
    rw [normalize, EveryMember.normalize_eq hP hQ h.2, ofMembers_eq,
      sortMembers_of_ordered (hQ members h.1)]

theorem EveryItem.normalize_eq {g : Number → Number} (hP : ∀ n, P n → g n = n)
    (hQ : ∀ ms, Q ms → Ordered ms) :
    ∀ {items : List Value}, EveryItem P Q items → normalizeItems g items = items
  | [], _ => rfl
  | _ :: _, h => by
    rw [EveryItem] at h
    rw [normalizeItems, Every.normalize_eq hP hQ h.1, EveryItem.normalize_eq hP hQ h.2]

theorem EveryMember.normalize_eq {g : Number → Number} (hP : ∀ n, P n → g n = n)
    (hQ : ∀ ms, Q ms → Ordered ms) :
    ∀ {members : List (String × Value)}, EveryMember P Q members →
      normalizeMembers g members = members
  | [], _ => rfl
  | (_, _) :: _, h => by
    rw [EveryMember] at h
    rw [normalizeMembers, Every.normalize_eq hP hQ h.1, EveryMember.normalize_eq hP hQ h.2]
end

/-- A value whose objects list their members in key order. -/
def Canonical (v : Value) : Prop := v.Every (fun _ => True) Ordered

/-- A value whose numbers are integers of 64 bits, with a sign or without. -/
def Whole (v : Value) : Prop :=
  v.Every (fun n => ∃ k, n = .int k ∧ -(2 ^ 63 : Nat) ≤ k ∧ k < natBound) fun _ => True

theorem sound_of_whole {v : Value} (hcanonical : v.Canonical) (hwhole : v.Whole) : v.Sound := by
  refine Every.sound ?_ (fun _ h => h.1.nodup) (hcanonical.and hwhole)
  rintro n ⟨-, k, rfl, hbounds⟩
  exact hbounds

/-- **A canonical value without floating-point numbers is read back as it is.** -/
theorem reread_of_whole {v : Value} (hcanonical : v.Canonical) (hwhole : v.Whole) :
    v.reread = v := by
  refine Every.normalize_eq ?_ (fun _ h => h.1) (hcanonical.and hwhole)
  rintro n ⟨-, k, rfl, hbounds⟩
  exact reread_int hbounds

theorem ofMembers_canonical {members : List (String × Value)}
    (h : ∀ m ∈ members, m.2.Canonical) : (ofMembers members).Canonical := by
  rw [ofMembers_eq, Canonical, Every, everyMember_iff]
  exact ⟨sortMembers_ordered members, fun m hm => h m (mem_of_mem_sortMembers hm)⟩

end Value

theorem readScalar_canonical {c : Char} {s rest : List Char} {v : Value}
    (h : readScalar c s = .ok (v, rest)) : v.Canonical := by
  unfold readScalar at h
  split_ifs at h
  all_goals
    obtain ⟨x, -, rfl⟩ := mapRead_ok h
    exact trivial

/-- **Only canonical values are read.** -/
theorem readValue_canonical {depth : Nat} {s rest : List Char} {v : Value}
    (h : readValue depth s = .ok (v, rest)) : v.Canonical := by
  induction depth generalizing s v rest with
  | zero =>
    rw [readValue] at h
    split at h
    · cases h
    · split at h
      · cases h
      · exact readScalar_canonical h
  | succ depth ih =>
    rw [readValue] at h
    split at h
    · cases h
    · split_ifs at h
      · obtain ⟨items, hread, rfl⟩ := mapRead_ok h
        rw [Value.Canonical, Value.Every, Value.everyItem_iff]
        exact readItemsFrom_forall (fun s x rest hx => ih hx) hread
      · obtain ⟨members, hread, rfl⟩ := mapRead_ok h
        exact Value.ofMembers_canonical
          (readMembersFrom_forall (P := Value.Canonical) (fun s x rest hx => ih hx) hread)
      · exact readScalar_canonical h

end Json

/-! ## Envelopes that a program can build -/

namespace Envelope

/-- What an envelope carries satisfies a condition. -/
structure Carries (P : Value → Prop) (e : Envelope Value Value) : Prop where
  input : ∀ v, e.input = some v → P v
  payload : ∀ v, e.payload = some v → P v

/-- **The ways to build an envelope.**  Values are maps, so that those a program supplies
are canonical; its times are those of a calendar.  A text that is decoded may be any. -/
inductive Built : Envelope Value Value → Prop where
  | origin (now : Timestamp) (payload : Value) (hnow : now.Valid)
    (hpayload : payload.Canonical) : Built (.origin now payload)
  | derived (now : Timestamp) (input payload : Value) (hnow : now.Valid)
    (hinput : input.Canonical) (hpayload : payload.Canonical) : Built (.derived now input payload)
  | failed (now : Timestamp) (input : Option Value) (err : ErrorDetails) (hnow : now.Valid)
    (hinput : ∀ v, input = some v → v.Canonical) : Built (.failed now input err)
  | stamped {e : Envelope Value Value} (p : Provenance) (h : Built e) : Built (e.stamped p)
  | consumed {e : Envelope Value Value} (at_ : Timestamp) (hat : at_.Valid) (h : Built e) :
    Built (e.consume at_)
  | decoded {e : Envelope Value Value} (text : String)
    (h : decode (Envelope Value Value) text = .ok e) : Built e

variable {e : Envelope Value Value}

theorem decode_canonical {text : String} (h : decode (Envelope Value Value) text = .ok e) :
    e.Carries Value.Canonical := by
  obtain ⟨rest, hread⟩ := decode_read h
  have hobject : RecordFormat.read (format Value Value) (126 + 1) text.toList = .ok (e, rest) :=
    hread
  obtain ⟨hinput, hpayload⟩ := read_values hobject
  refine ⟨fun v hv => ?_, fun v hv => ?_⟩
  · obtain ⟨s, rest', hv'⟩ := hinput v hv
    exact readValue_canonical hv'
  · obtain ⟨s, rest', hv'⟩ := hpayload v hv
    exact readValue_canonical hv'

/-- **What holds of every envelope that a program can build.** -/
theorem Built.canonical (h : e.Built) : e.createdAt.Valid ∧
    (∀ t, e.consumedAt = some t → t.Valid) ∧ e.Carries Value.Canonical := by
  induction h with
  | origin now payload hnow hpayload =>
    refine ⟨hnow, fun t ht => (by cases ht), fun v hv => (by cases hv), fun v hv => ?_⟩
    cases hv
    exact hpayload
  | derived now input payload hnow hinput hpayload =>
    refine ⟨hnow, fun t ht => (by cases ht), fun v hv => ?_, fun v hv => ?_⟩
    · cases hv
      exact hinput
    · cases hv
      exact hpayload
  | failed now input err hnow hinput =>
    exact ⟨hnow, fun t ht => (by cases ht), hinput, fun v hv => (by cases hv)⟩
  | stamped p h ih => exact ⟨ih.1, ih.2.1, ih.2.2.input, ih.2.2.payload⟩
  | @consumed e at_ hat h ih =>
    refine ⟨ih.1, fun t ht => ?_, ih.2.2.input, ih.2.2.payload⟩
    -- the first time of consumption is kept
    obtain rfl : e.consumedAt.getD at_ = t := Option.some.inj ht
    cases hconsumed : e.consumedAt with
    | none => exact hat
    | some s => exact ih.2.1 s hconsumed
  | decoded text h =>
    obtain ⟨hsound, -⟩ := decode_sound h
    exact ⟨hsound.created, hsound.consumed, decode_canonical h⟩

/-! ## The members of an envelope -/

/-- Which of the fields are populated, in order. -/
def populated (e : Envelope Value Value) : List Bool :=
  [true, e.consumedAt.isSome, e.pluginName.isSome, e.pluginVersion.isSome, e.host.isSome,
    e.input.isSome, e.payload.isSome, e.err.isSome]

theorem mem_member_keys {name key : String} {value : Option Value} :
    name ∈ (member key value).map Prod.fst ↔ name = key ∧ value.isSome = true := by
  cases value <;> simp [member]

/-- An envelope has a member for every populated field, and no other. -/
theorem mem_members_keys (e : Envelope Value Value) (name : String) :
    name ∈ (e.members e.input e.payload).map Prod.fst ↔
      (name, true) ∈ fieldNames.zip e.populated := by
  simp only [members, fieldNames, populated, List.map_cons, List.map_append, List.mem_cons,
    List.mem_append, mem_member_keys, Option.isSome_map, List.zip_cons_cons, List.zip_nil_right,
    Prod.mk.injEq, List.not_mem_nil, or_false, and_true, or_assoc, eq_comm (a := true)]

/-- **Envelopes survive the wire.** -/
theorem Built.read_back (h : e.Built) (hwhole : e.Carries Value.Whole)
    (hnesting : e.nesting ≤ maxDepth) : ∃ text, encode e = .ok text ∧
      decode (Envelope Value Value) text = .ok e ∧
      ∃ members, decode Value text = .ok (.object members) ∧
        ∀ name, name ∈ members.map Prod.fst ↔ (name, true) ∈ fieldNames.zip e.populated := by
  obtain ⟨hcreated, hconsumed, hcanonical⟩ := h.canonical
  have hsound : e.Sound := ⟨hcreated, hconsumed,
    fun v hv => Value.sound_of_whole (hcanonical.input v hv) (hwhole.input v hv),
    fun v hv => Value.sound_of_whole (hcanonical.payload v hv) (hwhole.payload v hv)⟩
  have hsame (x : Option Value) (hc : ∀ v, x = some v → v.Canonical)
      (hw : ∀ v, x = some v → v.Whole) : x.map Value.reread = x := by
    cases x with
    | none => rfl
    | some v => rw [Option.map_some, Value.reread_of_whole (hc v rfl) (hw v rfl)]
  have hreread : e.reread = e := by
    rw [reread, hsame e.input hcanonical.input hwhole.input,
      hsame e.payload hcanonical.payload hwhole.payload]
  refine ⟨e.toValue.text, encode_eq e, ?_, ?_⟩
  · rw [decode_text hsound hnesting, hreread]
  · -- as a value, the envelope is read with its members in key order
    let members := Value.normalizeMembers Number.reread (e.members e.input e.payload)
    have hkeys : members.map Prod.fst = (e.members e.input e.payload).map Prod.fst :=
      Value.normalizeMembers_keys ..
    have hnodup : (members.map Prod.fst).Nodup := hkeys ▸ members_keys_nodup e
    refine ⟨Value.sortMembers members, decode_value (toValue_sound hsound) hnesting, ?_⟩
    intro name
    rw [((Value.sortMembers_perm hnodup).map Prod.fst).mem_iff, hkeys, mem_members_keys]

/-- A null that is present as input, a payload with texts to escape and the two extreme
integers, a producer and a time of consumption: all of it survives, and the failure that
is absent has no member. -/
theorem Built.read_back_escaped :
    let e : Envelope Value Value :=
      ((Envelope.derived ⟨2024, 2, 29, 23, 59, 60, 5⟩ .null (.object [
        ("\"\\\n", .string "\x00é\t"),
        ("a", .array [.number (.int (-9223372036854775808)), .null]),
        ("ü", .number (.int 18446744073709551615))])).stamped
          { plugin := "p", version := "", host := "h\"" }).consume ⟨-1, 1, 1, 0, 0, 0, 0⟩
    e.Built ∧ e.Carries Value.Whole ∧ e.nesting ≤ maxDepth ∧
      ∃ text, encode e = .ok text ∧ decode (Envelope Value Value) text = .ok e ∧
        ∃ members, decode Value text = .ok (.object members) ∧
          "input" ∈ members.map Prod.fst ∧ "err" ∉ members.map Prod.fst := by
  intro e
  have hbuilt : e.Built := by
    refine .consumed _ (by decide) (.stamped _ (.derived _ _ _ (by decide) trivial ?_))
    simp only [Value.Canonical, Value.Every, Value.EveryMember, Value.EveryItem, and_true]
    show List.Pairwise (fun a b : String × Value => a.1 < b.1) _
    simp only [List.pairwise_cons, List.forall_mem_cons]
    decide
  have hwhole : e.Carries Value.Whole := by
    refine ⟨fun v hv => ?_, fun v hv => ?_⟩
    · cases hv
      trivial
    · cases hv
      simp [Value.Whole, Value.Every, Value.EveryMember, Value.EveryItem, natBound,
        Word.count]
  have hnesting : e.nesting ≤ maxDepth := by decide
  obtain ⟨text, hencode, hdecode, members, hobject, hkeys⟩ := hbuilt.read_back hwhole hnesting
  refine ⟨hbuilt, hwhole, hnesting, text, hencode, hdecode, members, hobject, ?_, ?_⟩
  · rw [hkeys]
    decide
  · rw [hkeys]
    decide

end Envelope
end LaneBus
