import LaneBus.Proofs.Envelopes

/-! # Readers of whole values

A reader of a type may refuse the text of a value, or make something else of it than
was written: a float of an integer, or nothing of a null.  In any case it reads the
value as a whole and nothing of what closes it (`ReadsWhole`).  This holds of every
value, also of those that are not read back, such as an integer of more than 64 bits.

So a record that is read from an object takes its members one by one, each with the
value that was written for it (`RecordFormat.readMembersFrom_takes`).
-/
namespace LaneBus
namespace Json

/-- The reader of a type reads whole values. -/
class ReadsWhole (α : Type) [Decode α] : Prop where
  ends (depth : Nat) (v : Value) {rest : List Char} (hrest : Closes rest) :
    EndsAt rest (Decode.read depth (v.chars ++ rest) : Except Fault (α × List Char))

variable {rest : List Char}

/-! ## Scalars -/

/-- A number begins with a character that no other value begins with. -/
theorem number_head (n : Number) : ∃ c cs, startsNumber c = true ∧
    (∀ rest, skipSpace ((Value.number n).chars ++ rest) = c :: (cs ++ rest)) ∧
    ∀ rest, Closes rest → EndsAt rest (readNumber c (cs ++ rest)) := by
  obtain ⟨c, cs, htext, hc, hends⟩ := numberText_ends n
  refine ⟨c, cs, hc, fun rest => ?_, hends⟩
  rw [Value.chars, htext, List.cons_append, skipSpace_cons _ (startsNumber_startsValue hc).1]

/-- Where there is no string, none is read. -/
theorem readText_ends (v : Value) (rest : List Char) :
    EndsAt rest (readText (v.chars ++ rest)) := by
  cases v with
  | string s =>
    rw [readText_chars]
    exact endsAt_ok _ _
  | number n =>
    obtain ⟨c, cs, hc, hskip, -⟩ := number_head n
    rw [readText, hskip]
    split
    · exact endsAt_error _ _
    · rename_i heq
      cases heq
      cases hc
    · exact endsAt_error _ _
  | bool b => cases b <;> exact endsAt_error _ _
  | null => exact endsAt_error _ _
  | array items => exact endsAt_error _ _
  | object members => exact endsAt_error _ _

theorem readBool_ends (v : Value) (rest : List Char) :
    EndsAt rest (readBool (v.chars ++ rest)) := by
  cases v with
  | bool b =>
    cases b with
    | true => exact endsAt_ok true rest
    | false => exact endsAt_ok false rest
  | number n =>
    obtain ⟨c, cs, hc, hskip, -⟩ := number_head n
    rw [readBool, hskip]
    split
    · exact endsAt_error _ _
    · rename_i heq
      cases heq
      cases hc
    · rename_i heq
      cases heq
      cases hc
    · exact endsAt_error _ _
  | null => exact endsAt_error _ _
  | string s => exact endsAt_error _ _
  | array items => exact endsAt_error _ _
  | object members => exact endsAt_error _ _

theorem readInt_ends (low high : Int) (expected : String) (v : Value) (hrest : Closes rest) :
    EndsAt rest (readInt low high expected (v.chars ++ rest)) := by
  cases v with
  | number n =>
    obtain ⟨c, cs, hc, hskip, hends⟩ := number_head n
    rw [readInt, hskip]
    dsimp only
    rw [if_pos hc]
    have hread := hends rest hrest
    split
    · exact endsAt_error _ _
    · rename_i heq
      rw [hread _ _ heq]
      split
      · exact endsAt_ok _ _
      · exact endsAt_error _ _
    · exact endsAt_error _ _
  | bool b => cases b <;> exact endsAt_error _ _
  | null => exact endsAt_error _ _
  | string s => exact endsAt_error _ _
  | array items => exact endsAt_error _ _
  | object members => exact endsAt_error _ _

theorem readFloat_ends (v : Value) (hrest : Closes rest) :
    EndsAt rest (readFloat (v.chars ++ rest)) := by
  cases v with
  | number n =>
    obtain ⟨c, cs, hc, hskip, hends⟩ := number_head n
    rw [readFloat, hskip]
    dsimp only
    rw [if_pos hc]
    have hread := hends rest hrest
    split
    · exact endsAt_error _ _
    · rename_i heq
      rw [hread _ _ heq]
      exact endsAt_ok _ _
    · rename_i heq
      rw [hread _ _ heq]
      exact endsAt_ok _ _
  | bool b => cases b <;> exact endsAt_error _ _
  | null => exact endsAt_error _ _
  | string s => exact endsAt_error _ _
  | array items => exact endsAt_error _ _
  | object members => exact endsAt_error _ _

theorem readTimestamp_ends (v : Value) (rest : List Char) :
    EndsAt rest (Timestamp.read (v.chars ++ rest)) := by
  obtain ⟨c, cs, hchars, hc⟩ := chars_head v
  rw [hchars, List.cons_append, Timestamp.read, skipSpace_cons _ hc.1]
  split
  · exact endsAt_error _ _
  · rename_i heq
    have htext := readText_ends v rest
    rw [hchars, List.cons_append, heq] at htext
    change EndsAt rest (readString _) at htext
    split
    · exact endsAt_error _ _
    · rename_i hread
      rw [htext _ _ hread]
      split
      · exact endsAt_error _ _
      · exact endsAt_ok _ _
  · exact endsAt_error _ _

/-! ## Lists and objects -/

theorem readItemsFrom_ends {α : Type} {item : Reader α} {xs : List Value}
    (h : ∀ x ∈ xs, ∀ rest, Closes rest → EndsAt rest (item (x.chars ++ rest))) (steps : Nat)
    (first : Bool) (rest : List Char) :
    EndsAt rest (readItemsFrom item steps first (itemsFrom first xs ++ rest)) := by
  induction xs generalizing steps first with
  | nil =>
    cases steps with
    | zero => exact endsAt_error _ _
    | succ steps =>
      rw [readItemsFrom, nextItem_nil]
      exact endsAt_ok _ _
  | cons x xs ih =>
    cases steps with
    | zero => exact endsAt_error _ _
    | succ steps =>
      have hitem := h x List.mem_cons_self _ (Value.itemsTail_closes xs rest)
      rw [readItemsFrom, nextItem_cons]
      dsimp only
      split
      · exact endsAt_error _ _
      · rename_i heq
        have hmore := ih (fun y hy => h y (List.mem_cons_of_mem x hy)) steps false
        rw [hitem _ _ heq]
        split
        · exact endsAt_error _ _
        · rename_i heq'
          rw [hmore _ _ heq']
          exact endsAt_ok _ _

theorem readItems_ends {α : Type} {item : Reader α} {xs : List Value}
    (h : ∀ x ∈ xs, ∀ rest, Closes rest → EndsAt rest (item (x.chars ++ rest)))
    (rest : List Char) : EndsAt rest (readItems item (Value.itemsText xs ++ rest)) :=
  readItemsFrom_ends h _ true rest

theorem readMembersFrom_ends {item : Reader Value} {ms : List (String × Value)}
    (h : ∀ m ∈ ms, ∀ rest, Closes rest → EndsAt rest (item (m.2.chars ++ rest))) (steps : Nat)
    (first : Bool) (rest : List Char) :
    EndsAt rest (readMembersFrom item steps first (membersFrom first ms ++ rest)) := by
  induction ms generalizing steps first with
  | nil =>
    cases steps with
    | zero => exact endsAt_error _ _
    | succ steps =>
      rw [readMembersFrom, nextKey_nil]
      exact endsAt_ok _ _
  | cons m ms ih =>
    obtain ⟨k, v⟩ := m
    cases steps with
    | zero => exact endsAt_error _ _
    | succ steps =>
      have hitem := h (k, v) List.mem_cons_self _ (Value.membersTail_closes ms rest)
      rw [readMembersFrom, nextKey_cons]
      simp only [readColon_cons]
      split
      · exact endsAt_error _ _
      · rename_i heq
        have hmore := ih (fun y hy => h y (List.mem_cons_of_mem _ hy)) steps false
        rw [hitem _ _ heq]
        split
        · exact endsAt_error _ _
        · rename_i heq'
          rw [hmore _ _ heq']
          exact endsAt_ok _ _

/-- A value without brackets is read as a whole. -/
theorem readScalar_ends {v : Value} (h : v.nesting = 0) (hrest : Closes rest) (depth : Nat) :
    EndsAt rest (readValue depth (v.chars ++ rest)) := by
  cases v with
  | null =>
    rw [show readValue depth (Value.null.chars ++ rest) = _ from
      readValue_scalar depth _ (by decide) (by decide) (by decide)]
    exact endsAt_ok Value.null rest
  | bool b =>
    cases b with
    | true =>
      rw [show readValue depth ((Value.bool true).chars ++ rest) = _ from
        readValue_scalar depth _ (by decide) (by decide) (by decide)]
      exact endsAt_ok (Value.bool true) rest
    | false =>
      rw [show readValue depth ((Value.bool false).chars ++ rest) = _ from
        readValue_scalar depth _ (by decide) (by decide) (by decide)]
      exact endsAt_ok (Value.bool false) rest
  | number n =>
    obtain ⟨c, cs, htext, hc, hends⟩ := numberText_ends n
    have hlist : c ≠ '[' := by rintro rfl; cases hc
    have hobject : c ≠ '{' := by rintro rfl; cases hc
    rw [Value.chars, htext, List.cons_append,
      readValue_scalar depth _ (startsNumber_startsValue hc).1 hlist hobject,
      readScalar_number _ hc]
    exact (hends rest hrest).mapRead _
  | string s =>
    rw [Value.chars, quote, List.cons_append,
      readValue_scalar depth _ (by decide) (by decide) (by decide)]
    change EndsAt rest (mapRead Value.string (readString (stringTail s.toList ++ rest)))
    rw [readString_stringTail]
    exact endsAt_ok _ _
  | array items => cases h
  | object members => cases h

theorem readValue_ends (depth : Nat) (v : Value) (hrest : Closes rest) :
    EndsAt rest (readValue depth (v.chars ++ rest)) := by
  induction depth generalizing v rest with
  | zero =>
    cases v with
    | array items => exact endsAt_error _ _
    | object members => exact endsAt_error _ _
    | _ => exact readScalar_ends rfl hrest 0
  | succ depth ih =>
    cases v with
    | array items =>
      rw [Value.chars, List.cons_append, readValue_list]
      exact (readItems_ends (fun x _ _ hrest => ih x hrest) rest).mapRead _
    | object members =>
      rw [Value.chars, List.cons_append, readValue_object]
      exact (readMembersFrom_ends (fun m _ _ hrest => ih m.2 hrest) _ true rest).mapRead _
    | _ => exact readScalar_ends rfl hrest _

/-! ## Types -/

instance : ReadsWhole Value := ⟨fun depth v _ hrest => readValue_ends depth v hrest⟩

instance : ReadsWhole String := ⟨fun _ v rest _ => readText_ends v rest⟩

instance : ReadsWhole Bool := ⟨fun _ v rest _ => readBool_ends v rest⟩

instance : ReadsWhole Binary64 := ⟨fun _ v _ hrest => readFloat_ends v hrest⟩

instance : ReadsWhole Int64 := ⟨fun _ v _ hrest => (readInt_ends _ _ _ v hrest).mapRead _⟩

instance : ReadsWhole UInt8 := ⟨fun _ v _ hrest => (readInt_ends _ _ _ v hrest).mapRead _⟩

instance : ReadsWhole Timestamp := ⟨fun _ v rest _ => readTimestamp_ends v rest⟩

theorem readOptional_ends {α : Type} {item : Reader α} (v : Value)
    (h : EndsAt rest (item (v.chars ++ rest))) :
    EndsAt rest (readOptional item (v.chars ++ rest)) := by
  cases v with
  | null => exact endsAt_ok (none : Option α) rest
  | number n =>
    obtain ⟨c, cs, htext, hc, -⟩ := numberText_ends n
    have hnull : c ≠ 'n' := by rintro rfl; cases hc
    rw [Value.chars, htext, List.cons_append] at h ⊢
    rw [readOptional_cons item _ (startsNumber_startsValue hc).1 hnull]
    exact h.mapRead _
  | bool b =>
    cases b with
    | true =>
      rw [show readOptional item ((Value.bool true).chars ++ rest) = _ from
        readOptional_cons item _ (by decide) (by decide)]
      exact h.mapRead _
    | false =>
      rw [show readOptional item ((Value.bool false).chars ++ rest) = _ from
        readOptional_cons item _ (by decide) (by decide)]
      exact h.mapRead _
  | string s =>
    rw [readOptional_string]
    exact h.mapRead _
  | array items =>
    rw [Value.chars, List.cons_append] at h ⊢
    rw [readOptional_cons item _ (by decide) (by decide)]
    exact h.mapRead _
  | object members =>
    rw [Value.chars, List.cons_append] at h ⊢
    rw [readOptional_cons item _ (by decide) (by decide)]
    exact h.mapRead _

section

variable {α : Type} [Decode α] [ReadsWhole α]

instance : ReadsWhole (Option α) :=
  ⟨fun depth v _ hrest => readOptional_ends v (ReadsWhole.ends depth v hrest)⟩

theorem readList_ends (depth : Nat) (v : Value) (rest : List Char) :
    EndsAt rest (readList (Decode.read : Nat → Reader α) depth (v.chars ++ rest)) := by
  cases v with
  | array items =>
    cases depth with
    | zero => exact endsAt_error _ _
    | succ depth => exact readItems_ends (fun x _ _ hrest => ReadsWhole.ends depth x hrest) rest
  | number n =>
    obtain ⟨c, cs, hc, hskip, -⟩ := number_head n
    rw [readList, hskip]
    split
    · exact endsAt_error _ _
    · rename_i heq
      cases heq
      cases hc
    · exact endsAt_error _ _
  | bool b => cases b <;> exact endsAt_error _ _
  | null => exact endsAt_error _ _
  | string s => exact endsAt_error _ _
  | object members => exact endsAt_error _ _

instance : ReadsWhole (List α) := ⟨fun depth v rest _ => readList_ends depth v rest⟩

end

/-! ## Records -/

namespace RecordFormat

variable {σ α : Type} {f : RecordFormat σ α} {depth : Nat}

/-- A draft comes of another one by reading the members. -/
inductive Takes (f : RecordFormat σ α) (depth : Nat) :
    σ → List (String × Value) → σ → Prop where
  | nil (acc : σ) : Takes f depth acc [] acc
  | cons {acc next after : σ} {k : String} {v : Value} {ms : List (String × Value)}
      {step : σ → Except Issue (Nat → Reader σ)} {value : Nat → Reader σ} {rest : List Char}
      (hfield : f.field k = some step) (hstep : step acc = .ok value)
      (hread : value depth (v.chars ++ rest) = .ok (next, rest))
      (hmore : Takes f depth next ms after) : Takes f depth acc ((k, v) :: ms) after

/-- All members are known, and their readers read whole values. -/
def Knows (f : RecordFormat σ α) (depth : Nat) (ms : List (String × Value)) : Prop :=
  ∀ m ∈ ms, ∃ step, f.field m.1 = some step ∧ ∀ acc value, step acc = .ok value →
    ∀ rest, Closes rest → EndsAt rest (value depth (m.2.chars ++ rest))

/-- **A record that is read from known members takes one after the other.** -/
theorem readMembersFrom_takes {ms : List (String × Value)} (first : Bool)
    (hknows : f.Knows depth ms)
    {steps : Nat} {acc : σ} {rest after : List Char} {x : α}
    (h : f.readMembersFrom depth steps first acc (membersFrom first ms ++ rest) = .ok (x, after)) :
    ∃ last, f.Takes depth acc ms last ∧ f.finish last = .ok x := by
  induction ms generalizing steps first acc with
  | nil =>
    cases steps with
    | zero => cases h
    | succ steps =>
      rw [readMembersFrom, nextKey_nil] at h
      dsimp only at h
      split at h
      · cases h
      · rename_i hfinish
        cases h
        exact ⟨acc, .nil acc, hfinish⟩
  | cons m ms ih =>
    obtain ⟨k, v⟩ := m
    cases steps with
    | zero => cases h
    | succ steps =>
      obtain ⟨step, hfield, hwhole⟩ := hknows (k, v) List.mem_cons_self
      rw [readMembersFrom, nextKey_cons] at h
      simp only [hfield, readColon_cons] at h
      split at h
      · cases h
      · rename_i value hstep
        split at h
        · cases h
        · rename_i next rest' hread
          have hrest := hwhole acc value hstep _ (Value.membersTail_closes ms rest) _ _ hread
          rw [hrest] at h hread
          obtain ⟨last, htakes, hfinish⟩ := ih false
            (fun m hm => hknows m (List.mem_cons_of_mem _ hm)) h
          exact ⟨last, .cons hfield hstep hread htakes, hfinish⟩

/-- A record that is read from the text of an object takes its members. -/
theorem read_takes {ms : List (String × Value)} (hknows : f.Knows depth ms)
    {rest after : List Char} {x : α}
    (h : f.read (depth + 1) ((Value.object ms).chars ++ rest) = .ok (x, after)) :
    ∃ last, f.Takes depth f.empty ms last ∧ f.finish last = .ok x := by
  rw [Value.chars, List.cons_append, read_brace] at h
  exact readMembersFrom_takes true hknows h

end RecordFormat
end Json
end LaneBus
