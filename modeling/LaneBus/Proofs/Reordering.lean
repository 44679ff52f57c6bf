import LaneBus.Proofs.Absorbing
import Mathlib.Tactic.IntervalCases

/-! # Members in any order

Of the members of an object only those of known names count, and their order does not: fields
go into places of their own, so that two members may change places (`RecordFormat.Slotted`).
Members of other names may be added anywhere, of any value (`RecordFormat.absorbAll_extends`);
a known name must not be repeated (`RecordFormat.absorbAll_repeated`).

Envelopes are such records, and so are the failure details in them
(`Envelope.decode_members`).
-/
namespace LaneBus
namespace Json

/-! ## Objects -/

/-- A member whose key denotes a name, and whose value is any value. -/
structure Member extends RawMember where
  name : String
  spelled : Denotes key name.toList
  valid : ValueForm value.text

/-- The members of an object in order, and the blanks before them. -/
structure ObjectForm where
  gap : Gap
  members : List Member

theorem Member.result?_key (m : Member) : result? readString m.key = some m.name := by
  rw [m.spelled.reads.result?, String.ofList_toList]

namespace ObjectForm

variable {o o' : ObjectForm} {known : List String}

/-- The members without their names. -/
def raw (o : ObjectForm) : List RawMember := o.members.map Member.toRawMember

/-- The text of an object. -/
def chars (o : ObjectForm) : List Char :=
  '{' :: (o.gap.chars ++ elementsText '}' true (o.raw.map RawMember.chars))

/-- A whole text that consists of an object, perhaps between blanks. -/
def document (o : ObjectForm) (front back : Gap) : String :=
  String.ofList (front.chars ++ (o.chars ++ back.chars))

/-- **An object extends another one** if it has the same members in any order, and besides only
members of names that are not known. -/
def Extends (known : List String) (o' o : ObjectForm) : Prop :=
  ∃ extra, o'.members.Perm (o.members ++ extra) ∧ ∀ m ∈ extra, m.name ∉ known

/-- A name is the name of two members or more. -/
def Repeats (o : ObjectForm) (k : String) : Prop := 1 < (o.members.map Member.name).count k

instance (o : ObjectForm) (k : String) : Decidable (o.Repeats k) :=
  inferInstanceAs (Decidable (1 < _))

theorem keys (o : ObjectForm) : ∀ m ∈ o.raw, StringForm m.key := by
  intro m hm
  obtain ⟨m, -, rfl⟩ := List.mem_map.mp hm
  exact m.spelled.form

theorem values (o : ObjectForm) : ∀ m ∈ o.raw, ValueForm m.value.text := by
  intro m hm
  obtain ⟨m, -, rfl⟩ := List.mem_map.mp hm
  exact m.valid

/-- Two members of a repeated name may be listed first. -/
theorem Repeats.perm {k : String} (h : o.Repeats k) :
    ∃ m m' rest, o.members.Perm (m :: m' :: rest) ∧ m.name = k ∧ m'.name = k := by
  obtain ⟨m, hm, hname⟩ := List.mem_map.mp (List.count_pos_iff.mp (Nat.lt_of_succ_lt h))
  obtain ⟨before, after, hsplit⟩ := List.append_of_mem hm
  have hothers : o.members.Perm (m :: (before ++ after)) := hsplit ▸ List.perm_middle
  have hcount : 0 < ((before ++ after).map Member.name).count k := by
    rw [Repeats, (hothers.map _).count_eq, List.map_cons, List.count_cons, hname] at h
    simpa using h
  obtain ⟨m', hm', hname'⟩ := List.mem_map.mp (List.count_pos_iff.mp hcount)
  obtain ⟨before', after', hsplit'⟩ := List.append_of_mem hm'
  refine ⟨m, m', before' ++ after', hothers.trans (.cons m ?_), hname, hname'⟩
  rw [hsplit']
  exact List.perm_middle

end ObjectForm

namespace Member

/-- A member as it is written, without blanks. -/
def written (name : String) {text : List Char} (valid : ValueForm text) : Member where
  before := .none
  key := stringTail name.toList
  colon := .none
  value := { before := .none, text := text, after := .none }
  name := name
  spelled := .stringTail name.toList
  valid := valid

/-- A member whose value is a text. -/
def ofText (name text : String) : Member :=
  .written name (.string (Denotes.stringTail text.toList).form)

/-- A member whose value is an object. -/
def ofObject (name : String) (o : ObjectForm) : Member :=
  .written name (.object o.gap o.raw o.keys o.values)

end Member

namespace RecordFormat

variable {σ α : Type} {f : RecordFormat σ α} {depth : Nat}

/-! ## Fields that change places -/

/-- Two fields may be filled in either order. -/
def Commute (depth : Nat) (step step' : σ → Except Issue (Nat → Reader σ)) : Prop :=
  ∀ v v' acc, (fill depth step v acc).bind (fill depth step' v') =
    (fill depth step' v' acc).bind (fill depth step v)

/-- A field is filled only once. -/
def Once (depth : Nat) (step : σ → Except Issue (Nat → Reader σ)) : Prop :=
  ∀ v v' acc, (fill depth step v acc).bind (fill depth step v') = none

/-- **A record whose fields have places of their own**: those of known names, each filled once
and in any order. -/
structure Slotted (f : RecordFormat σ α) (depth : Nat) (known : List String) : Prop where
  known : ∀ k, (f.field k).isSome ↔ k ∈ known
  once : ∀ {k step}, f.field k = some step → Once depth step
  commute : ∀ {k k' step step'}, f.field k = some step → f.field k' = some step' → k ≠ k' →
    Commute depth step step'

section

variable {β γ : Type} {name name' : String} {get : σ → Option β} {set : σ → β → σ}
  {value : Nat → Reader β} {get' : σ → Option γ} {set' : σ → γ → σ} {value' : Nat → Reader γ}

/-- A slot takes what is read for it, unless it is taken. -/
theorem fill_slot (depth : Nat) (v : List Char) (acc : σ) :
    fill depth (slot name get set value) v acc =
      if (get acc).isSome then none else (result? (value depth) v).map (set acc) := by
  rw [fill, slot]
  split
  · rfl
  · exact result?_mapRead (value depth) (set acc) v

theorem slot_once (h : ∀ acc x, (get (set acc x)).isSome) :
    Once depth (slot name get set value) := by
  intro v v' acc
  rw [fill_slot]
  split
  · rfl
  · cases result? (value depth) v with
    | none => rfl
    | some x => rw [Option.map_some, Option.bind_some, fill_slot, if_pos (h acc x)]

theorem slot_commute (hget : ∀ acc x, get' (set acc x) = get' acc)
    (hget' : ∀ acc y, get (set' acc y) = get acc)
    (hset : ∀ acc x y, set' (set acc x) y = set (set' acc y) x) :
    Commute depth (slot name get set value) (slot name' get' set' value') := by
  intro v v' acc
  have hthen (x : β) : fill depth (slot name' get' set' value') v' (set acc x) =
      if (get' acc).isSome then none else (result? (value' depth) v').map (set' (set acc x)) := by
    rw [fill_slot, hget]
  have hthen' (y : γ) : fill depth (slot name get set value) v (set' acc y) =
      if (get acc).isSome then none else (result? (value depth) v).map (set (set' acc y)) := by
    rw [fill_slot, hget']
  rw [fill_slot, fill_slot]
  -- neither order is accepted if a slot is taken or a value is refused
  cases hread : result? (value depth) v <;> cases hread' : result? (value' depth) v' <;>
    by_cases hfree : (get acc).isSome <;> by_cases hfree' : (get' acc).isSome <;>
      simp [hfree, hfree', hthen, hthen', hset, hread, hread']

theorem slot_readsValues {acc : σ} {reader : Nat → Reader σ} (h : ReadsValues (value depth))
    (hstep : slot name get set value acc = .ok reader) : ReadsValues (reader depth) := by
  unfold slot at hstep
  split at hstep
  · cases hstep
  · cases hstep
    exact h.mapRead (set acc)

end

variable {known : List String}

theorem absorb_named (acc : σ) (m : Member) :
    f.absorb depth (some acc) m.toRawMember = f.fillNamed depth m.name m.value.text acc := by
  rw [absorb, Option.bind_some, m.result?_key, Option.bind_some]

theorem absorb_unknown (hf : f.Slotted depth known) {m : Member} (hm : m.name ∉ known)
    (acc? : Option σ) : f.absorb depth acc? m.toRawMember = acc? := by
  cases acc? with
  | none => rfl
  | some acc =>
    have hnone : f.field m.name = none := by
      rw [← Option.not_isSome_iff_eq_none, hf.known]
      exact hm
    rw [absorb_named, fillNamed, hnone]

theorem absorb_known {m : Member} {step : σ → Except Issue (Nat → Reader σ)}
    (hstep : f.field m.name = some step) (acc? : Option σ) :
    f.absorb depth acc? m.toRawMember = acc?.bind (fill depth step m.value.text) := by
  cases acc? with
  | none => rfl
  | some acc => rw [absorb_named, fillNamed, hstep, Option.bind_some]

/-- **Two members may change places.** -/
theorem absorb_comm (hf : f.Slotted depth known) (acc? : Option σ) (m m' : Member) :
    f.absorb depth (f.absorb depth acc? m.toRawMember) m'.toRawMember =
      f.absorb depth (f.absorb depth acc? m'.toRawMember) m.toRawMember := by
  by_cases hm : m.name ∈ known
  · by_cases hm' : m'.name ∈ known
    · obtain ⟨step, hstep⟩ := Option.isSome_iff_exists.mp ((hf.known _).mpr hm)
      obtain ⟨step', hstep'⟩ := Option.isSome_iff_exists.mp ((hf.known _).mpr hm')
      simp only [absorb_known hstep, absorb_known hstep', Option.bind_assoc]
      congr 1
      funext acc
      by_cases hname : m.name = m'.name
      · -- neither order is accepted
        obtain rfl : step = step' := by
          rw [hname, hstep'] at hstep
          exact (Option.some.inj hstep).symm
        rw [hf.once hstep, hf.once hstep]
      · exact hf.commute hstep hstep' hname _ _ acc
    · rw [absorb_unknown hf hm', absorb_unknown hf hm']
  · rw [absorb_unknown hf hm, absorb_unknown hf hm]

theorem absorbAll_perm (hf : f.Slotted depth known) {ms ms' : List Member} (h : ms.Perm ms')
    (acc? : Option σ) : f.absorbAll depth acc? (ms.map Member.toRawMember) =
      f.absorbAll depth acc? (ms'.map Member.toRawMember) := by
  rw [absorbAll, absorbAll, List.foldl_map, List.foldl_map]
  exact h.foldl_eq' (fun m _ m' _ acc? => absorb_comm hf acc? m m') acc?

theorem absorbAll_unknown (hf : f.Slotted depth known) {extra : List Member}
    (hextra : ∀ m ∈ extra, m.name ∉ known) (acc? : Option σ) :
    f.absorbAll depth acc? (extra.map Member.toRawMember) = acc? := by
  induction extra with
  | nil => rfl
  | cons m ms ih =>
    rw [List.map_cons, absorbAll_cons, absorb_unknown hf (hextra m List.mem_cons_self)]
    exact ih fun n hn => hextra n (List.mem_cons_of_mem m hn)

variable {o o' : ObjectForm}

/-- **Order and other members do not matter.** -/
theorem absorbAll_extends (hf : f.Slotted depth known) (h : o'.Extends known o) (acc? : Option σ) :
    f.absorbAll depth acc? o'.raw = f.absorbAll depth acc? o.raw := by
  obtain ⟨extra, hperm, hextra⟩ := h
  have hsplit (ms : List Member) : f.absorbAll depth acc? ((ms ++ extra).map Member.toRawMember) =
      f.absorbAll depth (f.absorbAll depth acc? (ms.map Member.toRawMember))
        (extra.map Member.toRawMember) := by
    rw [List.map_append, absorbAll, List.foldl_append]
    rfl
  rw [ObjectForm.raw, absorbAll_perm hf hperm, hsplit, absorbAll_unknown hf hextra, ObjectForm.raw]

/-- **A known name must not be repeated.** -/
theorem absorbAll_repeated (hf : f.Slotted depth known) {k : String} (hk : k ∈ known)
    (h : o.Repeats k) (acc? : Option σ) : f.absorbAll depth acc? o.raw = none := by
  obtain ⟨m, m', rest, hperm, hm, hm'⟩ := h.perm
  obtain ⟨step, hstep⟩ := Option.isSome_iff_exists.mp ((hf.known k).mpr hk)
  have hboth : f.absorb depth (f.absorb depth acc? m.toRawMember) m'.toRawMember = none := by
    have hfirst : f.field m.name = some step := by rw [hm, hstep]
    have hsecond : f.field m'.name = some step := by rw [hm', hstep]
    rw [absorb_known hfirst, absorb_known hsecond, Option.bind_assoc]
    cases acc? with
    | none => rfl
    | some acc => exact hf.once hstep _ _ acc
  rw [ObjectForm.raw, absorbAll_perm hf hperm, List.map_cons, List.map_cons, absorbAll_cons,
    absorbAll_cons, hboth, absorbAll_none]

/-- An object is read as the record of the draft that its members leave. -/
theorem read_object_toOption (hf : f.Interprets depth) (o : ObjectForm) (rest : List Char) :
    (f.read (depth + 1) (o.chars ++ rest)).toOption =
      (f.finished (f.absorbAll depth (some f.empty) o.raw)).map fun x => (x, rest) :=
  read_members hf o.keys o.values o.gap rest

theorem result?_read (hf : f.Interprets depth) (o : ObjectForm) :
    result? (f.read (depth + 1)) o.chars =
      f.finished (f.absorbAll depth (some f.empty) o.raw) := by
  have hread := read_object_toOption hf o []
  rw [List.append_nil] at hread
  rw [result?, hread, Option.map_map]
  exact Option.map_id'

end RecordFormat
end Json

open Json

/-! ## Failure details -/

namespace ErrorDetails

/-- The names of the fields. -/
def fieldNames : List String := ["error", "msg", "stacktrace"]

theorem format_interprets (depth : Nat) : format.Interprets depth where
  field hfield hstep := by
    simp only [format] at hfield
    split at hfield
    · cases hfield
      exact RecordFormat.slot_readsValues readsValues_text hstep
    · cases hfield
      exact RecordFormat.slot_readsValues readsValues_text hstep
    · cases hfield
      exact RecordFormat.slot_readsValues readsValues_text hstep
    · cases hfield
  item i acc _ hv := by
    rcases i with _ | _ | i <;> exact (readsValues_text.settles hv).mapRead _

theorem format_slotted (depth : Nat) : format.Slotted depth fieldNames where
  known k := by
    simp only [format]
    split <;> simp_all [fieldNames]
  once h := by
    simp only [format] at h
    split at h <;> cases h <;> exact RecordFormat.slot_once fun _ _ => rfl
  commute h h' hne := by
    simp only [format] at h h'
    split at h <;> cases h <;> split at h' <;> cases h' <;>
      first
      | exact absurd rfl hne
      | exact RecordFormat.slot_commute (fun _ _ => rfl) (fun _ _ => rfl) fun _ _ _ => rfl

end ErrorDetails

/-! ## Envelopes -/

namespace Envelope

theorem fieldStep_readsValues {name : String} {i depth : Nat} {acc : Draft Value Value}
    {reader : Nat → Reader (Draft Value Value)} (hstep : fieldStep name i acc = .ok reader) :
    ReadsValues (reader depth) := by
  unfold fieldStep at hstep
  split at hstep
  · exact RecordFormat.slot_readsValues readsValues_timestamp hstep
  · exact RecordFormat.slot_readsValues readsValues_timestamp.optional hstep
  · exact RecordFormat.slot_readsValues readsValues_text.optional hstep
  · exact RecordFormat.slot_readsValues readsValues_text.optional hstep
  · exact RecordFormat.slot_readsValues readsValues_text.optional hstep
  · exact RecordFormat.slot_readsValues (readsValues_value depth) hstep
  · exact RecordFormat.slot_readsValues (readsValues_value depth) hstep
  · have herr : ReadsValues (readOptional (Decode.read depth : Reader ErrorDetails)) :=
      (RecordFormat.readsValues_record ErrorDetails.format_interprets depth).optional
    exact RecordFormat.slot_readsValues herr hstep

theorem fieldStep_once (name : String) (i depth : Nat) :
    RecordFormat.Once depth (fieldStep (I := Value) (P := Value) name i) := by
  unfold fieldStep
  split <;> exact RecordFormat.slot_once fun _ _ => rfl

/-- Each field has a place of its own. -/
theorem fieldStep_commute (name name' : String) {i j : Nat} (hi : i < fieldNames.length)
    (hj : j < fieldNames.length) (hne : i ≠ j) (depth : Nat) :
    RecordFormat.Commute depth (fieldStep (I := Value) (P := Value) name i)
      (fieldStep name' j) := by
  change i < 8 at hi
  change j < 8 at hj
  interval_cases i <;> interval_cases j <;>
    first
    | exact absurd rfl hne
    | exact RecordFormat.slot_commute (fun _ _ => rfl) (fun _ _ => rfl) fun _ _ _ => rfl

theorem field_eq_some {k : String} {step : Draft Value Value →
    Except Issue (Nat → Reader (Draft Value Value))}
    (h : (format Value Value).field k = some step) :
    k ∈ fieldNames ∧ step = fieldStep k (fieldNames.idxOf k) := by
  change (if k ∈ fieldNames then some (fieldStep k (fieldNames.idxOf k)) else none) = _ at h
  split at h
  · rename_i hk
    exact ⟨hk, (Option.some.inj h).symm⟩
  · cases h

theorem format_interprets (depth : Nat) : (format Value Value).Interprets depth where
  field hfield hstep := by
    obtain ⟨-, rfl⟩ := field_eq_some hfield
    exact fieldStep_readsValues hstep
  item i acc _ hv := by
    simp only [format]
    cases hstep : fieldStep "" i acc with
    | error issue => exact .refuses fun rest _ => ⟨_, rfl⟩
    | ok reader => exact (fieldStep_readsValues hstep).settles hv

theorem format_slotted (depth : Nat) : (format Value Value).Slotted depth fieldNames where
  known k := by
    change (if k ∈ fieldNames then some (fieldStep k (fieldNames.idxOf k)) else none).isSome ↔ _
    split <;> simp [*]
  once h := by
    obtain ⟨-, rfl⟩ := field_eq_some h
    exact fieldStep_once _ _ _
  commute h h' hne := by
    obtain ⟨hk, rfl⟩ := field_eq_some h
    obtain ⟨hk', rfl⟩ := field_eq_some h'
    exact fieldStep_commute _ _ (List.idxOf_lt_length_iff.mpr hk) (List.idxOf_lt_length_iff.mpr hk')
      (fun heq => hne ((List.idxOf_inj hk).mp heq)) _

/-! ## Failure details in an envelope -/

/-- The failure details that an object is read as. -/
def detailsOf (i : ObjectForm) : Option ErrorDetails :=
  ErrorDetails.format.finished (ErrorDetails.format.absorbAll 125 (some {}) i.raw)

theorem result?_err (i : ObjectForm) :
    result? (readOptional (Decode.read 126 : Reader ErrorDetails)) i.chars =
      (detailsOf i).map some := by
  have hoptional : readOptional (Decode.read 126 : Reader ErrorDetails) i.chars =
      mapRead some (ErrorDetails.format.read 126 i.chars) :=
    readOptional_cons _ _ (by decide) (by decide)
  calc result? (readOptional (Decode.read 126 : Reader ErrorDetails)) i.chars
      = result? (fun s => mapRead some (ErrorDetails.format.read 126 s)) i.chars := by
        rw [result?, result?, hoptional]
    _ = (result? (ErrorDetails.format.read 126) i.chars).map some := result?_mapRead ..
    _ = (detailsOf i).map some := by
        rw [RecordFormat.result?_read (ErrorDetails.format_interprets 125) i]
        rfl

/-- A member of failure details leaves what its object is read as. -/
theorem absorb_err {m : Member} {i : ObjectForm} (hname : m.name = "err")
    (hvalue : m.value.text = i.chars) (acc? : Option (Draft Value Value)) :
    (format Value Value).absorb 126 acc? m.toRawMember = acc?.bind fun acc =>
      if acc.err.isSome then none
      else ((detailsOf i).map some).map fun details => { acc with err := some details } := by
  have hfield : (format Value Value).field m.name = some (fieldStep "err" 7) := by rw [hname]; rfl
  rw [RecordFormat.absorb_known hfield, hvalue]
  congr 1
  funext acc
  rw [← result?_err]
  exact RecordFormat.fill_slot 126 i.chars acc

/-! ## Whole texts -/

/-- The envelope that an object is read as. -/
def envelopeOf (o : ObjectForm) : Option (Envelope Value Value) :=
  (format Value Value).finished ((format Value Value).absorbAll 126 (some {}) o.raw)

/-- **What an object is decoded as** does not depend on the blanks around it. -/
theorem decode_document (o : ObjectForm) (front back : Gap) :
    (decode (Envelope Value Value) (o.document front back)).toOption = envelopeOf o := by
  have hread : (Decode.read maxDepth (o.document front back).toList :
      Except Fault (Envelope Value Value × List Char)).toOption =
        (envelopeOf o).map fun e => (e, back.chars) := by
    rw [ObjectForm.document, String.toList_ofList]
    change ((format Value Value).read 127 (front.chars ++ (o.chars ++ back.chars))).toOption = _
    rw [RecordFormat.read_skipsBlanks]
    exact RecordFormat.read_object_toOption (format_interprets 126) o back.chars
  unfold decode
  dsimp only
  cases hresult : (Decode.read maxDepth (o.document front back).toList :
      Except Fault (Envelope Value Value × List Char)) with
  | error fault =>
    cases he : envelopeOf o with
    | none => rfl
    | some e =>
      rw [hresult, he] at hread
      cases hread
  | ok read =>
    cases he : envelopeOf o with
    | none =>
      rw [hresult, he] at hread
      cases hread
    | some e =>
      rw [hresult, he] at hread
      cases hread
      dsimp only
      rw [back.skipSpace_chars]
      rfl

theorem decode_eq_ok {o : ObjectForm} {front back : Gap} {e : Envelope Value Value} :
    decode (Envelope Value Value) (o.document front back) = .ok e ↔ envelopeOf o = some e := by
  rw [← decode_document o front back]
  cases decode (Envelope Value Value) (o.document front back) <;> simp [Except.toOption]

theorem decode_refused {o : ObjectForm} (h : envelopeOf o = none) (front back : Gap) :
    ∃ reason, decode (Envelope Value Value) (o.document front back) = .error reason := by
  rw [← decode_document o front back] at h
  cases hresult : decode (Envelope Value Value) (o.document front back) with
  | error reason => exact ⟨reason, rfl⟩
  | ok e =>
    rw [hresult] at h
    cases h

/-- A draft that one member refuses comes to nothing. -/
theorem envelopeOf_refused {o : ObjectForm} {m : Member} (hm : m ∈ o.members)
    (h : ∀ acc?, (format Value Value).absorb 126 acc? m.toRawMember = none) :
    envelopeOf o = none := by
  obtain ⟨before, after, hsplit⟩ := List.append_of_mem hm
  rw [envelopeOf, ObjectForm.raw, hsplit, List.map_append, List.map_cons,
    RecordFormat.absorbAll, List.foldl_append, List.foldl_cons, h]
  exact congrArg _ (RecordFormat.absorbAll_none _)

/-- **Decoding depends on the known members only.**  An object with the same members in another
order, and any others of unknown names among them, is decoded as the same envelope or not at all,
and so is one whose failure details are such an object.  None is decoded in which a known name is
repeated, be it among its own members or among those of its failure details. -/
theorem decode_members :
    (∀ (o o' : ObjectForm) (front back front' back' : Gap), o'.Extends fieldNames o →
      ∀ e, decode (Envelope Value Value) (o'.document front' back') = .ok e ↔
        decode (Envelope Value Value) (o.document front back) = .ok e) ∧
    (∀ (gap gap' : Gap) (before after : List Member) (m m' : Member) (i i' : ObjectForm)
      (front back front' back' : Gap), m.name = "err" → m'.name = "err" →
      m.value.text = i.chars → m'.value.text = i'.chars →
      i'.Extends ErrorDetails.fieldNames i →
      ∀ e, decode (Envelope Value Value)
          (ObjectForm.document ⟨gap', before ++ m' :: after⟩ front' back') = .ok e ↔
        decode (Envelope Value Value)
          (ObjectForm.document ⟨gap, before ++ m :: after⟩ front back) = .ok e) ∧
    (∀ (o : ObjectForm) (front back : Gap), ∀ k ∈ fieldNames, o.Repeats k →
      ∃ reason, decode (Envelope Value Value) (o.document front back) = .error reason) ∧
    ∀ (o : ObjectForm) (front back : Gap), ∀ m ∈ o.members, m.name = "err" →
      ∀ i : ObjectForm, m.value.text = i.chars → ∀ k ∈ ErrorDetails.fieldNames, i.Repeats k →
        ∃ reason, decode (Envelope Value Value) (o.document front back) = .error reason := by
  refine ⟨fun o o' front back front' back' h e => ?_,
    fun gap gap' before after m m' i i' front back front' back' hm hm' hi hi' h e => ?_,
    fun o front back k hk h => ?_, fun o front back m hm hname i hi k hk h => ?_⟩
  · rw [decode_eq_ok, decode_eq_ok, envelopeOf, envelopeOf,
      RecordFormat.absorbAll_extends (format_slotted 126) h]
  · have hdetails : detailsOf i' = detailsOf i := by
      rw [detailsOf, detailsOf,
        RecordFormat.absorbAll_extends (ErrorDetails.format_slotted 125) h]
    have hmember (acc? : Option (Draft Value Value)) :
        (format Value Value).absorb 126 acc? m'.toRawMember =
          (format Value Value).absorb 126 acc? m.toRawMember := by
      rw [absorb_err hm' hi', absorb_err hm hi, hdetails]
    rw [decode_eq_ok, decode_eq_ok, envelopeOf, envelopeOf]
    simp only [ObjectForm.raw, List.map_append, List.map_cons, RecordFormat.absorbAll,
      List.foldl_append, List.foldl_cons, hmember]
  · refine decode_refused ?_ front back
    rw [envelopeOf, RecordFormat.absorbAll_repeated (format_slotted 126) hk h]
    rfl
  · refine decode_refused (envelopeOf_refused hm fun acc? => ?_) front back
    have hdetails : detailsOf i = none := by
      rw [detailsOf, RecordFormat.absorbAll_repeated (ErrorDetails.format_slotted 125) hk h]
      rfl
    rw [absorb_err hname hi, hdetails]
    cases acc? <;> simp

/-- An envelope with failure details, in another order and with a list nobody knows. -/
theorem decode_members_reordered :
    let created := Member.ofText "created_at" "2024-01-01T00:00:00Z"
    let unknown := Member.written "tags" (.list .none [] nofun)
    let details := [Member.ofText "error" "e", .ofText "msg" "m", .ofText "stacktrace" "s"]
    let decoded (members : List Member) :=
      decode (Envelope Value Value) (ObjectForm.document ⟨.none, members⟩ .none .none)
    ∃ e, decoded [created, .ofObject "err" ⟨.none, details⟩] = .ok e ∧
      decoded [unknown, .ofObject "err" ⟨.none, details⟩, created, unknown] = .ok e ∧
      decoded [created, .ofObject "err" ⟨.none, unknown :: details⟩] = .ok e ∧
      (∃ reason, decoded [created, unknown, created] = .error reason) ∧
      ∃ reason, decoded [created, .ofObject "err" ⟨.none, details ++ details⟩] = .error reason := by
  intro created unknown details decoded
  have hok : (decoded [created, .ofObject "err" ⟨.none, details⟩]).isOk := by
    decide +kernel +revert
  obtain ⟨hextends, hdetails, hrepeated, hrepeatedDetail⟩ := decode_members
  cases he : decoded [created, .ofObject "err" ⟨.none, details⟩] with
  | error reason =>
    rw [he] at hok
    cases hok
  | ok e =>
    refine ⟨e, rfl, ?_, ?_, ?_, ?_⟩
    · have hperm : [unknown, .ofObject "err" ⟨.none, details⟩, created, unknown].Perm
          ([created, .ofObject "err" ⟨.none, details⟩] ++ [unknown, unknown]) :=
        (List.reverse_perm [created, .ofObject "err" ⟨.none, details⟩, unknown]).append_right _
      exact (hextends _ _ .none .none .none .none ⟨_, hperm, by decide⟩ e).mpr he
    · have hperm : (unknown :: details).Perm (details ++ [unknown]) :=
        (List.perm_append_singleton _ _).symm
      exact (hdetails .none .none [created] [] _ _ ⟨.none, details⟩ ⟨.none, unknown :: details⟩
        .none .none .none .none rfl rfl rfl rfl ⟨_, hperm, by decide⟩ e).mpr he
    · exact hrepeated _ .none .none "created_at" (by decide) (by decide)
    · exact hrepeatedDetail _ .none .none _ (List.mem_cons_of_mem _ List.mem_cons_self) rfl
        ⟨.none, details ++ details⟩ rfl "msg" (by decide) (by decide)

end Envelope
end LaneBus
