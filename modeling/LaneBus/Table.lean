/-! # Tables

A table is a finite map.  Its keys keep the order in which they first came; a new
value for a known key takes the place of the old one, so that no key comes twice.
-/
namespace LaneBus

/-- A finite map from `κ` to `α`. -/
structure Table (κ α : Type) where
  entries : List (κ × α)
  nodup : (entries.map Prod.fst).Nodup

namespace Table

variable {κ α : Type}

/-- The table without keys. -/
def empty : Table κ α := ⟨[], List.nodup_nil⟩

instance : EmptyCollection (Table κ α) := ⟨empty⟩

variable [DecidableEq κ]

/-- Binds a key among some entries. -/
def setEntry (k : κ) (a : α) : List (κ × α) → List (κ × α)
  | [] => [(k, a)]
  | (l, b) :: rest => if l = k then (k, a) :: rest else (l, b) :: setEntry k a rest

/-- The value of a key among some entries. -/
def valueAmong? (k : κ) : List (κ × α) → Option α
  | [] => none
  | (l, b) :: rest => if l = k then some b else valueAmong? k rest

theorem mem_map_fst_setEntry {k l : κ} {a : α} {entries : List (κ × α)} :
    l ∈ (setEntry k a entries).map Prod.fst ↔ l = k ∨ l ∈ entries.map Prod.fst := by
  induction entries with
  | nil => simp [setEntry]
  | cons e rest ih =>
    by_cases h : e.1 = k
    · simp [setEntry, h]
    · simp only [setEntry, h, if_false, List.map_cons, List.mem_cons, ih]
      exact or_left_comm

theorem nodup_setEntry {k : κ} {a : α} {entries : List (κ × α)}
    (h : (entries.map Prod.fst).Nodup) : ((setEntry k a entries).map Prod.fst).Nodup := by
  induction entries with
  | nil => simp [setEntry]
  | cons e rest ih =>
    rw [List.map_cons, List.nodup_cons] at h
    by_cases hk : e.1 = k
    · rw [setEntry, if_pos hk, List.map_cons, List.nodup_cons]
      exact hk ▸ h
    · simp only [setEntry, hk, if_false, List.map_cons, List.nodup_cons]
      refine ⟨fun hm => ?_, ih h.2⟩
      exact (mem_map_fst_setEntry.1 hm).elim hk h.1

/-- The value of a key. -/
def get? (t : Table κ α) (k : κ) : Option α := valueAmong? k t.entries

/-- The table with a value bound to a key. -/
def insert (t : Table κ α) (k : κ) (a : α) : Table κ α :=
  ⟨setEntry k a t.entries, nodup_setEntry t.nodup⟩

/-- The keys, in the order in which they first came. -/
def keys (t : Table κ α) : List κ := t.entries.map Prod.fst

theorem valueAmong?_setEntry (k l : κ) (a : α) (entries : List (κ × α)) :
    valueAmong? l (setEntry k a entries) = if k = l then some a else valueAmong? l entries := by
  induction entries with
  | nil => rfl
  | cons e rest ih =>
    obtain ⟨m, b⟩ := e
    by_cases hm : m = k
    · subst hm
      by_cases hl : m = l <;> simp [setEntry, valueAmong?, hl]
    · by_cases hl : m = l
      · subst hl
        simp [setEntry, valueAmong?, hm, Ne.symm hm]
      · simp [setEntry, valueAmong?, hm, hl, ih]

@[simp] theorem get?_empty (k : κ) : (empty : Table κ α).get? k = none := rfl

theorem get?_insert (t : Table κ α) (k l : κ) (a : α) :
    (t.insert k a).get? l = if k = l then some a else t.get? l :=
  valueAmong?_setEntry k l a t.entries

@[simp] theorem get?_insert_self (t : Table κ α) (k : κ) (a : α) :
    (t.insert k a).get? k = some a := by
  simp [get?_insert]

theorem isSome_valueAmong?_of_mem {e : κ × α} {entries : List (κ × α)} (h : e ∈ entries) :
    (valueAmong? e.1 entries).isSome := by
  induction entries with
  | nil => cases h
  | cons f rest ih =>
    by_cases hf : f.1 = e.1
    · simp [valueAmong?, hf]
    · have hne : e ≠ f := fun he => hf (he ▸ rfl)
      simpa [valueAmong?, hf] using ih (List.mem_of_ne_of_mem hne h)

theorem valueAmong?_eq_none {k : κ} {entries : List (κ × α)} (h : k ∉ entries.map Prod.fst) :
    valueAmong? k entries = none := by
  induction entries with
  | nil => rfl
  | cons e rest ih =>
    obtain ⟨hne, hrest⟩ := List.ne_and_not_mem_of_not_mem_cons h
    rw [valueAmong?, if_neg (Ne.symm hne)]
    exact ih hrest

theorem valueAmong?_eq_some_of_mem {k : κ} {a : α} {entries : List (κ × α)}
    (hnodup : (entries.map Prod.fst).Nodup) (h : (k, a) ∈ entries) :
    valueAmong? k entries = some a := by
  induction entries with
  | nil => cases h
  | cons e rest ih =>
    obtain ⟨hfresh, hrest⟩ := List.nodup_cons.mp hnodup
    rcases List.mem_cons.mp h with rfl | hmem
    · exact if_pos rfl
    · have hne : e.1 ≠ k := fun he => hfresh (List.mem_map.mpr ⟨_, hmem, he.symm⟩)
      rw [valueAmong?, if_neg hne]
      exact ih hrest hmem

/-- An entry says what its key is bound to. -/
theorem get?_eq_some_of_mem {t : Table κ α} {k : κ} {a : α} (h : (k, a) ∈ t.entries) :
    t.get? k = some a :=
  valueAmong?_eq_some_of_mem t.nodup h

/-- The entries are what the keys are bound to. -/
theorem mem_entries_iff {t : Table κ α} {k : κ} {a : α} :
    (k, a) ∈ t.entries ↔ t.get? k = some a := by
  refine ⟨get?_eq_some_of_mem, fun h => ?_⟩
  have hkey : k ∈ t.entries.map Prod.fst := Decidable.byContradiction fun hfresh => by
    rw [get?, valueAmong?_eq_none hfresh] at h
    cases h
  obtain ⟨⟨l, b⟩, hmem, rfl⟩ := List.mem_map.mp hkey
  rwa [Option.some.inj (h.symm.trans (get?_eq_some_of_mem hmem))]

/-- A key of an entry has a value. -/
theorem isSome_get?_of_mem {t : Table κ α} {e : κ × α} (h : e ∈ t.entries) :
    (t.get? e.1).isSome :=
  isSome_valueAmong?_of_mem h

end Table
end LaneBus
