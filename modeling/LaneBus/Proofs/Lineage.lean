import LaneBus.Proofs.RoundTrips
import Mathlib.Data.List.Induction
import Mathlib.Data.List.Nodup

/-! # Payloads of earlier stages

Going back along inputs, a payload is looked for from one node to the next: the first node of
the plugin decides, and the walk ends because every node nests less deep than the one it is
the input of (`Envelope.exists_inputAt_eq_none`).

An envelope that becomes the input of the next one, as it is written (`Envelope.toJson_pipeline`),
is a node with its own name, payload and input (`Envelope.payloadFrom_asValue`).  So along a
pipeline of any length what is found is what the latest stage of the plugin before the last has
produced, whatever its payload (`Envelope.earlierPayload_pipeline`).
-/
namespace LaneBus

namespace Json
namespace Value

variable {plugin key : String} {members members' : List (String × Value)} {v w : Value}

/-! ## Members of an object -/

/-- What is looked up is a member. -/
theorem mem_of_lookup (h : members.lookup key = some v) : (key, v) ∈ members := by
  obtain ⟨before, after, rfl, -⟩ := List.lookup_eq_some_iff.mp h
  exact List.mem_append_right _ List.mem_cons_self

/-- Where no key is repeated, every member is looked up by its key. -/
theorem lookup_eq_some_iff_mem (hkeys : (members.map Prod.fst).Nodup) :
    members.lookup key = some v ↔ (key, v) ∈ members := by
  refine ⟨mem_of_lookup, fun hmem => ?_⟩
  obtain ⟨before, after, rfl⟩ := List.append_of_mem hmem
  refine List.lookup_eq_some_iff.mpr ⟨before, after, rfl, fun m hm => bne_iff_ne.mpr ?_⟩
  rintro rfl
  rw [List.map_append, List.nodup_append] at hkeys
  exact hkeys.2.2 _ (List.mem_map_of_mem hm) _ (List.mem_map_of_mem List.mem_cons_self) rfl

/-- An object in key order has the members that were listed, if no key was repeated. -/
theorem member?_ofMembers (hkeys : (members.map Prod.fst).Nodup) (key : String) :
    (ofMembers members).member? key = members.lookup key := by
  have hperm := sortMembers_perm hkeys
  refine Option.ext fun v => ?_
  rw [ofMembers_eq, member?, lookup_eq_some_iff_mem ((hperm.map Prod.fst).nodup_iff.mpr hkeys),
    lookup_eq_some_iff_mem hkeys, hperm.mem_iff]

/-- A member nests less deep than its object. -/
theorem nesting_member? (h : v.member? key = some w) : w.nesting < v.nesting := by
  cases v with
  | object members =>
    have hmember := membersNesting_le_iff.mp (Nat.le_refl _) _ (mem_of_lookup h)
    rw [nesting]
    exact Nat.lt_succ_of_le hmember
  | _ => cases h

/-! ## The walk -/

theorem isFrom_iff : v.isFrom plugin = true ↔ v.member? "plugin_name" = some (.string plugin) := by
  rw [isFrom, beq_iff_eq, Option.bind_eq_some_iff]
  constructor
  · rintro ⟨name, hname, hplugin⟩
    cases name with
    | string s =>
      cases hplugin
      exact hname
    | _ => cases hplugin
  · intro h
    exact ⟨_, h, rfl⟩

theorem payloadFromInput_eq (plugin : String) (members : List (String × Value)) :
    payloadFromInput plugin members = (members.lookup "input").bind (payloadFrom plugin) := by
  induction members with
  | nil => rw [payloadFromInput]; rfl
  | cons m rest ih =>
    obtain ⟨k, v⟩ := m
    rw [payloadFromInput, List.lookup_cons]
    by_cases hk : k = "input"
    · rw [if_pos hk, hk, beq_self_eq_true]
      rfl
    · rw [if_neg hk, ih, beq_eq_false_iff_ne.mpr (Ne.symm hk)]

/-- **One step of the walk**: a node of the plugin decides, and another one leads to its
input. -/
theorem payloadFrom_eq (plugin : String) (v : Value) : payloadFrom plugin v =
    if v.isFrom plugin then v.member? "payload"
    else (v.member? "input").bind (payloadFrom plugin) := by
  cases v with
  | object members => rw [payloadFrom, payloadFromInput_eq]; rfl
  | _ => simp [payloadFrom, isFrom, member?]

/-- The nodes along inputs, from a node on. -/
def inputsFrom : Option Value → Nat → Option Value
  | node?, 0 => node?
  | node?, n + 1 => inputsFrom (node?.bind (member? "input")) n

theorem inputsFrom_none (n : Nat) : inputsFrom none n = none := by
  induction n with
  | zero => rfl
  | succ n ih => exact ih

/-- Inputs end, since they nest less and less deep. -/
theorem exists_inputsFrom_eq_none (node? : Option Value) : ∃ n, inputsFrom node? n = none := by
  cases node? with
  | none => exact ⟨0, rfl⟩
  | some v =>
    induction hn : v.nesting using Nat.strongRecOn generalizing v with
    | ind n ih =>
      cases hinput : v.member? "input" with
      | none => exact ⟨1, hinput⟩
      | some w =>
        obtain ⟨k, hk⟩ := ih w.nesting (hn ▸ nesting_member? hinput) w rfl
        exact ⟨k + 1, by rw [inputsFrom, Option.bind_some, hinput, hk]⟩

/-- The first node of the plugin decides. -/
theorem payloadFrom_first {n : Nat} {node? : Option Value} {node : Value}
    (hnode : inputsFrom node? n = some node) (hplugin : node.isFrom plugin = true)
    (hfirst : ∀ k < n, ∀ v, inputsFrom node? k = some v → v.isFrom plugin = false) :
    node?.bind (payloadFrom plugin) = node.member? "payload" := by
  induction n generalizing node? with
  | zero =>
    obtain rfl : node? = some node := hnode
    rw [Option.bind_some, payloadFrom_eq, if_pos hplugin]
  | succ n ih =>
    cases node? with
    | none =>
      rw [inputsFrom_none] at hnode
      cases hnode
    | some v =>
      have hother := hfirst 0 (Nat.succ_pos n) v rfl
      rw [Option.bind_some, payloadFrom_eq, hother, if_neg Bool.false_ne_true]
      exact ih hnode fun k hk => hfirst (k + 1) (Nat.succ_lt_succ hk)

/-- Where no node is of the plugin, nothing is found. -/
theorem payloadFrom_none {node? : Option Value}
    (hnone : ∀ n v, inputsFrom node? n = some v → v.isFrom plugin = false) :
    node?.bind (payloadFrom plugin) = none := by
  obtain ⟨n, hend⟩ := exists_inputsFrom_eq_none node?
  induction n generalizing node? with
  | zero =>
    obtain rfl : node? = none := hend
    rfl
  | succ n ih =>
    cases node? with
    | none => rfl
    | some v =>
      rw [Option.bind_some, payloadFrom_eq, hnone 0 v rfl, if_neg Bool.false_ne_true]
      exact ih (fun k => hnone (k + 1)) hend

end Value
end Json

open Json

namespace Envelope

variable {P : Type}

/-- The node that is reached from an envelope along inputs after some steps. -/
def inputAt (e : Envelope Value P) (n : Nat) : Option Value := Value.inputsFrom e.input n

/-! ## Envelopes as nodes -/

/-- An envelope of values as a value, which lists the members in key order. -/
def asValue (e : Envelope Value Value) : Value := .ofMembers (e.members e.input e.payload)

theorem members_canonical {e : Envelope Value Value} (h : e.Carries Value.Canonical) :
    ∀ m ∈ e.members e.input e.payload, m.2.Canonical := by
  refine forall_members (fun _ => trivial) (fun d => ?_) h.input h.payload
  refine ⟨?_, trivial, trivial, trivial, trivial⟩
  show List.Pairwise (fun a b : String × Value => a.1 < b.1) _
  simp only [List.pairwise_cons, List.forall_mem_cons]
  decide

theorem asValue_canonical {e : Envelope Value Value} (h : e.Carries Value.Canonical) :
    e.asValue.Canonical :=
  Value.ofMembers_canonical (members_canonical h)

/-- **An envelope as a value is what it is written as**, in canonical form. -/
theorem toJson_canonical {e : Envelope Value Value} (h : e.Carries Value.Canonical) :
    Value.canonical <$> Encode.toJson e = .ok e.asValue := by
  have hsame : Value.canonicalMembers (e.members e.input e.payload) =
      e.members e.input e.payload := by
    rw [Value.canonicalMembers_eq]
    exact Value.EveryMember.normalize_eq (fun _ _ => rfl) (fun _ h => h)
      (Value.everyMember_iff.mpr (members_canonical h))
  rw [toJson_eq, toValue]
  show Except.ok (Value.canonical (.object _)) = _
  rw [Value.canonical, hsame, asValue]

theorem lookup_member (name key : String) (value : Option Value) :
    (member name value).lookup key = if key = name then value else none := by
  cases value with
  | none => simp [member]
  | some v =>
    rw [member, Option.map_some, Option.toList_some, List.lookup_cons]
    by_cases h : key = name
    · simp [h]
    · rw [if_neg h, beq_eq_false_iff_ne.mpr h]
      rfl

/-- An envelope is a node with its own name, payload and input. -/
theorem member?_asValue (e : Envelope Value Value) :
    e.asValue.member? "plugin_name" = e.pluginName.map .string ∧
      e.asValue.member? "payload" = e.payload ∧ e.asValue.member? "input" = e.input := by
  have hlookup (key : String) :
      e.asValue.member? key = (e.members e.input e.payload).lookup key :=
    Value.member?_ofMembers (members_keys_nodup e) key
  simp only [hlookup, members]
  simp [List.lookup_cons, List.lookup_append, lookup_member]

/-- **An envelope as a node** decides if it is of the plugin, and leads to its input if not. -/
theorem payloadFrom_asValue (e : Envelope Value Value) (plugin : String) :
    Value.payloadFrom plugin e.asValue =
      if e.pluginName = some plugin then e.payload else e.earlierPayload plugin := by
  obtain ⟨hname, hpayload, hinput⟩ := e.member?_asValue
  have hfrom : e.asValue.isFrom plugin = true ↔ e.pluginName = some plugin := by
    rw [Value.isFrom_iff, hname]
    cases e.pluginName <;> simp
  rw [Value.payloadFrom_eq, hpayload, hinput]
  simp only [hfrom]
  rfl

/-! ## Pipelines -/

/-- What one plugin of a pipeline produces, and when. -/
structure Stage where
  producer : Provenance
  time : Timestamp
  payload : Value

/-- The envelope of the next stage, derived from that of the one before. -/
def next (e : Envelope Value Value) (s : Stage) : Envelope Value Value :=
  (derived s.time e.asValue s.payload).stamped s.producer

/-- The envelope of the last stage of a pipeline, whose first one has no input. -/
def pipeline (first : Stage) (later : List Stage) : Envelope Value Value :=
  later.foldl next ((origin first.time first.payload).stamped first.producer)

theorem pipeline_concat (first : Stage) (later : List Stage) (s : Stage) :
    pipeline first (later ++ [s]) = (pipeline first later).next s :=
  List.foldl_concat ..

theorem pipeline_carries {first : Stage} {later : List Stage}
    (h : ∀ s ∈ first :: later, s.payload.Canonical) :
    (pipeline first later).Carries Value.Canonical := by
  induction later using List.reverseRecOn with
  | nil =>
    refine ⟨fun v hv => (by cases hv), fun v hv => ?_⟩
    cases hv
    exact h first List.mem_cons_self
  | append_singleton before s ih =>
    have hbefore := ih fun s' hs' => h s' (List.mem_append_left [s] hs')
    rw [pipeline_concat]
    refine ⟨fun v hv => ?_, fun v hv => ?_⟩
    · cases hv
      exact asValue_canonical hbefore
    · cases hv
      exact h s (List.mem_append_right (first :: before) List.mem_cons_self)

/-- The input of a stage is what the envelope of the stage before is written as, since the payloads
that a program supplies are canonical. -/
theorem toJson_pipeline {first : Stage} {later : List Stage}
    (h : ∀ s ∈ first :: later, s.payload.Canonical) :
    Value.canonical <$> Encode.toJson (pipeline first later) =
      .ok (pipeline first later).asValue :=
  toJson_canonical (pipeline_carries h)

/-- The envelope of a pipeline is one of its last stage. -/
theorem pipeline_last (first : Stage) (later : List Stage) :
    ∃ s, (first :: later).getLast? = some s ∧
      (pipeline first later).pluginName = some s.producer.plugin ∧
      (pipeline first later).payload = some s.payload := by
  cases later using List.reverseRecOn with
  | nil => exact ⟨first, rfl, rfl, rfl⟩
  | append_singleton before s =>
    rw [pipeline_concat]
    exact ⟨s, by rw [← List.cons_append, List.getLast?_concat], rfl, rfl⟩

/-- **Along a pipeline**, what is found is what the latest stage of the plugin before the last
has produced. -/
theorem earlierPayload_pipeline (first : Stage) (later : List Stage) (plugin : String) :
    (pipeline first later).earlierPayload plugin =
      ((first :: later).dropLast.findRev? fun s => s.producer.plugin == plugin).map
        Stage.payload := by
  induction later using List.reverseRecOn with
  | nil => rfl
  | append_singleton before s ih =>
    obtain ⟨last, hlast, hname, hpayload⟩ := pipeline_last first before
    have hstep : ((pipeline first before).next s).earlierPayload plugin =
        Value.payloadFrom plugin (pipeline first before).asValue := rfl
    have hstages : (first :: (before ++ [s])).dropLast = (first :: before).dropLast ++ [last] := by
      rw [← List.cons_append, List.dropLast_concat, List.dropLast_append_getLast? last hlast]
    rw [pipeline_concat, hstep, payloadFrom_asValue, hname, hpayload, ih, hstages,
      List.findRev?_eq_find?_reverse, List.findRev?_eq_find?_reverse, List.reverse_concat,
      List.find?_cons]
    by_cases hplugin : last.producer.plugin = plugin
    · simp [hplugin]
    · simp [hplugin, beq_eq_false_iff_ne.mpr hplugin]

/-- **Payloads of earlier stages.**  On the last envelope of a pipeline of any length, the payload
that is found is that of the latest stage of the plugin strictly before the last, and none
if there is no such stage.  Whatever value the input of an envelope is, the walk along its
inputs ends, and finds the payload of the first node that has the plugin's name, if that node
has one, and none if no node has the name. -/
theorem earlierPayload_walks :
    (∀ (first : Stage) (later : List Stage) (plugin : String),
      (pipeline first later).earlierPayload plugin =
        ((first :: later).dropLast.findRev? fun s => s.producer.plugin == plugin).map
          Stage.payload) ∧
    ∀ {P : Type} (e : Envelope Value P), (∃ n, e.inputAt n = none) ∧ ∀ plugin,
      (∀ n node, e.inputAt n = some node → node.member? "plugin_name" = some (.string plugin) →
        (∀ k < n, ∀ v, e.inputAt k = some v → v.member? "plugin_name" ≠ some (.string plugin)) →
        e.earlierPayload plugin = node.member? "payload") ∧
      ((∀ n node, e.inputAt n = some node →
        node.member? "plugin_name" ≠ some (.string plugin)) → e.earlierPayload plugin = none) := by
  have hother {plugin : String} {v : Value}
      (h : v.member? "plugin_name" ≠ some (.string plugin)) : v.isFrom plugin = false := by
    rw [← Bool.not_eq_true, Value.isFrom_iff]
    exact h
  refine ⟨earlierPayload_pipeline, fun e => ⟨Value.exists_inputsFrom_eq_none e.input,
    fun plugin => ⟨fun n node hnode hname hfirst => ?_, fun hnone => ?_⟩⟩⟩
  · exact Value.payloadFrom_first hnode (Value.isFrom_iff.mpr hname)
      fun k hk v hv => hother (hfirst k hk v hv)
  · exact Value.payloadFrom_none fun n v hv => hother (hnone n v hv)

end Envelope
end LaneBus
