import LaneBus.Json.Record
import LaneBus.Proofs.Values

/-! # Reading back records

The members of an object take a draft of a record from one state to another, one
member after the other (`RecordFormat.Fills`).  Where the draft that they reach has
a record, the object is read as that record (`RecordFormat.read_object`); where one
member is refused, so is the object (`RecordFormat.read_refused`).  What every field
keeps of a draft holds of the draft a record was made of, whether it was read from
an object or from a list (`RecordFormat.read_invariant`).
-/
namespace LaneBus
namespace Json
namespace RecordFormat

variable {σ α : Type} {f : RecordFormat σ α} {depth : Nat}

/-! ## Members that fill a draft -/

/-- The members take a draft from one state to another. -/
inductive Fills (f : RecordFormat σ α) (depth : Nat) :
    σ → List (String × Value) → σ → Prop where
  | nil (acc : σ) : Fills f depth acc [] acc
  | cons {acc after : σ} (next : σ) {k : String} {v : Value} {ms : List (String × Value)}
      {step : σ → Except Issue (Nat → Reader σ)} {value : Nat → Reader σ}
      (hfield : f.field k = some step) (hstep : step acc = .ok value)
      (hread : ∀ rest, Closes rest → value depth (v.chars ++ rest) = .ok (next, rest))
      (hmore : Fills f depth next ms after) :
      Fills f depth acc ((k, v) :: ms) after

theorem Fills.append {acc next after : σ} {xs ys : List (String × Value)}
    (h : Fills f depth acc xs next) (h' : Fills f depth next ys after) :
    Fills f depth acc (xs ++ ys) after := by
  induction h with
  | nil acc => exact h'
  | cons next hfield hstep hread hmore ih => exact .cons _ hfield hstep hread (ih h')

/-- Members that fill a draft are read up to what comes after them. -/
theorem Fills.readMembersFrom {acc after : σ} {ms : List (String × Value)}
    (h : Fills f depth acc ms after) (more : List (String × Value)) (steps : Nat) (first : Bool)
    (rest : List Char) :
    f.readMembersFrom depth (steps + ms.length) first acc (membersFrom first (ms ++ more) ++ rest) =
      f.readMembersFrom depth steps (first && ms.isEmpty) after
        (membersFrom (first && ms.isEmpty) more ++ rest) := by
  induction h generalizing first with
  | nil acc => rw [List.nil_append, List.length_nil, List.isEmpty_nil, Bool.and_true, Nat.add_zero]
  | cons next hfield hstep hread hmore ih =>
    have hrest := ih false
    rw [Bool.false_and] at hrest
    rw [List.cons_append, List.length_cons, ← Nat.add_assoc, RecordFormat.readMembersFrom,
      nextKey_cons]
    simp only [hfield, hstep, readColon_cons]
    rw [hread _ (Value.membersTail_closes _ rest)]
    simp only [List.isEmpty_cons, Bool.and_false]
    exact hrest

theorem length_lt_steps (ms : List (String × Value)) (rest : List Char) :
    ∃ steps, (Value.membersText ms ++ rest).length + 1 = steps + 1 + ms.length := by
  have hlength := Value.length_lt_membersText ms rest
  exact ⟨(Value.membersText ms ++ rest).length - ms.length, by omega⟩

theorem read_brace (rest : List Char) : f.read (depth + 1) ('{' :: rest) =
    f.readMembersFrom depth (rest.length + 1) true f.empty rest := rfl

/-- **An object whose members fill a draft is read as the record of the draft.** -/
theorem read_object {after : σ} {ms : List (String × Value)} {x : α}
    (h : Fills f depth f.empty ms after) (hfinish : f.finish after = .ok x) (rest : List Char) :
    f.read (depth + 1) ((Value.object ms).chars ++ rest) = .ok (x, rest) := by
  obtain ⟨steps, hsteps⟩ := length_lt_steps ms rest
  have hfills := h.readMembersFrom [] (steps + 1) true rest
  rw [List.append_nil] at hfills
  rw [Value.chars, List.cons_append, read_brace, hsteps]
  change f.readMembersFrom depth _ true f.empty (membersFrom true ms ++ rest) = _
  rw [hfills, RecordFormat.readMembersFrom, nextKey_nil]
  simp only [hfinish]

/-- **An object is refused** when the value of one of its members is, and those
before it fill a draft. -/
theorem read_refused {acc : σ} {before after : List (String × Value)} {k : String} {v : Value}
    {step : σ → Except Issue (Nat → Reader σ)} {value : Nat → Reader σ}
    (h : Fills f depth f.empty before acc) (hfield : f.field k = some step)
    (hstep : step acc = .ok value)
    (hrefused : ∀ rest, Closes rest → ∃ fault, value depth (v.chars ++ rest) = .error fault)
    (rest : List Char) : ∃ fault,
      f.read (depth + 1) ((Value.object (before ++ (k, v) :: after)).chars ++ rest) =
        .error fault := by
  -- the members before take one step each and leave more than one
  obtain ⟨steps, hsteps⟩ := length_lt_steps (before ++ (k, v) :: after) rest
  have hlength : steps + 1 + (before ++ (k, v) :: after).length =
      steps + 1 + (after.length + 1) + before.length := by
    rw [List.length_append, List.length_cons]
    omega
  rw [hlength] at hsteps
  have hfills := h.readMembersFrom ((k, v) :: after) (steps + 1 + (after.length + 1)) true rest
  obtain ⟨fault, hfault⟩ := hrefused _ (Value.membersTail_closes after rest)
  refine ⟨fault, ?_⟩
  rw [Value.chars, List.cons_append, read_brace, hsteps]
  change f.readMembersFrom depth _ true f.empty (membersFrom true _ ++ rest) = _
  rw [hfills, ← Nat.add_assoc, RecordFormat.readMembersFrom, nextKey_cons]
  simp only [hfield, hstep, readColon_cons, hfault]

/-- An absent field leaves a draft as it is, and a present one goes into its slot. -/
theorem fills_slot {β γ : Type} {name : String} {get : σ → Option β} {set : σ → β → σ}
    {value : Nat → Reader β} {acc : σ} (field? : Option γ) (toValue : γ → Value) (x : γ → β)
    (put : Option β → σ) (hfield : f.field name = some (slot name get set value))
    (hget : get acc = none) (hnone : put none = acc) (hsome : ∀ y, put (some y) = set acc y)
    (hread : ∀ g, field? = some g → ∀ rest, Closes rest →
      value depth ((toValue g).chars ++ rest) = .ok (x g, rest)) :
    Fills f depth acc ((field?.map toValue).map fun v => (name, v)).toList (put (field?.map x)) := by
  cases field? with
  | none =>
    rw [Option.map_none, Option.map_none, Option.map_none, hnone]
    exact .nil acc
  | some g =>
    -- the slot is free, so the field is not a duplicate
    have hstep : slot name get set value acc =
        .ok fun depth s => mapRead (set acc) (value depth s) := by
      rw [slot, hget]
      rfl
    refine .cons _ hfield hstep ?_ (.nil _)
    intro rest hrest
    rw [hread g rfl rest hrest, mapRead, Option.map_some, hsome]

/-! ## What every field keeps -/

/-- A slot takes what was read for it. -/
theorem slot_ok {β : Type} {name : String} {get : σ → Option β} {set : σ → β → σ}
    {value : Nat → Reader β} {acc next : σ} {reader : Nat → Reader σ} {s rest : List Char}
    (hstep : slot name get set value acc = .ok reader)
    (hread : reader depth s = .ok (next, rest)) :
    ∃ x, value depth s = .ok (x, rest) ∧ next = set acc x := by
  unfold slot at hstep
  split at hstep
  · cases hstep
  · cases hstep
    exact mapRead_ok hread

section

variable {I : σ → Prop}

theorem readMembersFrom_invariant
    (hfield : ∀ {k step acc value s next rest}, f.field k = some step → I acc →
      step acc = .ok value → value depth s = .ok (next, rest) → I next)
    {steps : Nat} {first : Bool} {acc : σ} {s rest : List Char} {x : α} (hacc : I acc)
    (h : f.readMembersFrom depth steps first acc s = .ok (x, rest)) :
    ∃ after, I after ∧ f.finish after = .ok x := by
  induction steps generalizing first acc s with
  | zero => cases h
  | succ steps ih =>
    rw [RecordFormat.readMembersFrom] at h
    split at h
    · cases h
    · split at h
      · cases h
      · rename_i hfinish
        cases h
        exact ⟨acc, hacc, hfinish⟩
    · split at h
      · split at h
        · cases h
        · split at h
          · cases h
          · exact ih hacc h
      · rename_i hknown
        split at h
        · cases h
        · rename_i hstep
          split at h
          · cases h
          · split at h
            · cases h
            · rename_i hread
              exact ih (hfield hknown hacc hstep hread) h

theorem readItemsFrom_invariant
    (hitem : ∀ {i acc s next rest}, I acc → f.item i acc depth s = .ok (next, rest) → I next)
    {left i : Nat} {acc : σ} {s rest : List Char} {x : α} (hacc : I acc)
    (h : f.readItemsFrom depth left i acc s = .ok (x, rest)) :
    ∃ after, I after ∧ f.finish after = .ok x := by
  induction left generalizing i acc s with
  | zero =>
    rw [RecordFormat.readItemsFrom] at h
    split at h
    · cases h
    · split at h
      · cases h
      · rename_i hfinish
        cases h
        exact ⟨acc, hacc, hfinish⟩
  | succ left ih =>
    rw [RecordFormat.readItemsFrom] at h
    split at h
    · cases h
    · split at h
      · cases h
      · split at h
        · cases h
        · rename_i hfinish
          cases h
          exact ⟨acc, hacc, hfinish⟩
    · split at h
      · cases h
      · rename_i hread
        exact ih (hitem hacc hread) h

/-- **What every field keeps of a draft holds of the draft of a record that was
read.** -/
theorem read_invariant (hempty : I f.empty)
    (hfield : ∀ {k step acc value s next rest}, f.field k = some step → I acc →
      step acc = .ok value → value depth s = .ok (next, rest) → I next)
    (hitem : ∀ {i acc s next rest}, I acc → f.item i acc depth s = .ok (next, rest) → I next)
    {s rest : List Char} {x : α} (h : f.read (depth + 1) s = .ok (x, rest)) :
    ∃ after, I after ∧ f.finish after = .ok x := by
  unfold RecordFormat.read at h
  split at h
  · cases h
  · split_ifs at h
    · exact readItemsFrom_invariant hitem hempty h
    · exact readMembersFrom_invariant hfield hempty h

end

end RecordFormat
end Json
end LaneBus
