import LaneBus.Proofs.Numbers

/-! # The nesting of values

`Value.nesting` counts how deep the brackets of a value nest.  A value is sound
when its numbers are and no object repeats a key (`Value.Sound`).  Listing the
members of an object in key order only permutes members of distinct keys
(`sortMembers_perm`), so a sound value nests as deep when its objects are in key
order, whatever becomes of its numbers (`normalize_nesting`).
-/
namespace LaneBus
namespace Json
namespace Value

mutual
/-- How deep the brackets of a value nest. -/
def nesting : Value → Nat
  | .array items => itemsNesting items + 1
  | .object members => membersNesting members + 1
  | _ => 0

/-- How deep the brackets of some items nest. -/
def itemsNesting : List Value → Nat
  | [] => 0
  | x :: xs => max (nesting x) (itemsNesting xs)

/-- How deep the brackets of some members nest. -/
def membersNesting : List (String × Value) → Nat
  | [] => 0
  | (_, x) :: xs => max (nesting x) (membersNesting xs)
end

mutual
/-- The numbers of a value are sound, and no object repeats a key. -/
def Sound : Value → Prop
  | .number n => n.Sound
  | .array items => SoundItems items
  | .object members => (members.map Prod.fst).Nodup ∧ SoundMembers members
  | _ => True

/-- Some items are sound. -/
def SoundItems : List Value → Prop
  | [] => True
  | x :: xs => Sound x ∧ SoundItems xs

/-- The values of some members are sound. -/
def SoundMembers : List (String × Value) → Prop
  | [] => True
  | (_, x) :: xs => Sound x ∧ SoundMembers xs
end

theorem itemsNesting_le_iff {items : List Value} {depth : Nat} :
    itemsNesting items ≤ depth ↔ ∀ x ∈ items, x.nesting ≤ depth := by
  induction items with
  | nil => simp [itemsNesting]
  | cons x xs ih => simp [itemsNesting, ih]

theorem membersNesting_le_iff {members : List (String × Value)} {depth : Nat} :
    membersNesting members ≤ depth ↔ ∀ m ∈ members, m.2.nesting ≤ depth := by
  induction members with
  | nil => simp [membersNesting]
  | cons m ms ih =>
    obtain ⟨k, x⟩ := m
    simp [membersNesting, ih]

theorem lt_itemsNesting_iff {items : List Value} {depth : Nat} :
    depth < itemsNesting items ↔ ∃ x ∈ items, depth < x.nesting := by
  rw [← Nat.not_le, itemsNesting_le_iff]
  simp only [not_forall, Nat.not_le, exists_prop]

theorem lt_membersNesting_iff {members : List (String × Value)} {depth : Nat} :
    depth < membersNesting members ↔ ∃ m ∈ members, depth < m.2.nesting := by
  rw [← Nat.not_le, membersNesting_le_iff]
  simp only [not_forall, Nat.not_le, exists_prop]

theorem soundItems_iff {items : List Value} : SoundItems items ↔ ∀ x ∈ items, x.Sound := by
  induction items with
  | nil => simp [SoundItems]
  | cons x xs ih => simp [SoundItems, ih]

theorem soundMembers_iff {members : List (String × Value)} :
    SoundMembers members ↔ ∀ m ∈ members, m.2.Sound := by
  induction members with
  | nil => simp [SoundMembers]
  | cons m ms ih =>
    obtain ⟨k, x⟩ := m
    simp [SoundMembers, ih]

theorem membersNesting_append (xs ys : List (String × Value)) :
    membersNesting (xs ++ ys) = max (membersNesting xs) (membersNesting ys) := by
  induction xs with
  | nil => rw [List.nil_append, membersNesting, Nat.zero_max]
  | cons m ms ih =>
    obtain ⟨k, x⟩ := m
    rw [List.cons_append, membersNesting, membersNesting, ih, Nat.max_assoc]

/-- The nesting of members depends only on which there are. -/
theorem membersNesting_congr {xs ys : List (String × Value)} (h : ∀ m, m ∈ xs ↔ m ∈ ys) :
    membersNesting xs = membersNesting ys := by
  apply Nat.le_antisymm
  · rw [membersNesting_le_iff]
    intro m hm
    exact membersNesting_le_iff.1 (Nat.le_refl _) m ((h m).1 hm)
  · rw [membersNesting_le_iff]
    intro m hm
    exact membersNesting_le_iff.1 (Nat.le_refl _) m ((h m).2 hm)

/-! ## Members in key order -/

/-- The keys of some members rise from one to the next. -/
def Ordered (members : List (String × Value)) : Prop := members.Pairwise fun a b => a.1 < b.1

/-- Some members in key order, the last of every key. -/
def sortMembers (members : List (String × Value)) : List (String × Value) :=
  members.foldl (fun sorted (k, v) => insertMember k v sorted) []

theorem ofMembers_eq (members : List (String × Value)) :
    ofMembers members = .object (sortMembers members) := rfl

theorem mem_of_mem_insertMember {key : String} {value : Value} {members : List (String × Value)}
    {m : String × Value} (h : m ∈ insertMember key value members) :
    m = (key, value) ∨ m ∈ members := by
  induction members with
  | nil => exact .inl (List.mem_singleton.1 h)
  | cons a rest ih =>
    obtain ⟨k, v⟩ := a
    rw [insertMember] at h
    split_ifs at h with heq hlt
    · rcases List.mem_cons.1 h with rfl | hrest
      · exact .inl rfl
      · exact .inr (List.mem_cons_of_mem _ hrest)
    · exact List.mem_cons.1 h
    · rcases List.mem_cons.1 h with rfl | hrest
      · exact .inr List.mem_cons_self
      · rcases ih hrest with hnew | hold
        · exact .inl hnew
        · exact .inr (List.mem_cons_of_mem _ hold)

/-- A member of a new key joins the others. -/
theorem insertMember_perm {key : String} {members : List (String × Value)} (value : Value)
    (hkey : key ∉ members.map Prod.fst) :
    (insertMember key value members).Perm ((key, value) :: members) := by
  induction members with
  | nil => exact List.Perm.refl _
  | cons a rest ih =>
    obtain ⟨k, v⟩ := a
    rw [List.map_cons, List.mem_cons, not_or] at hkey
    obtain ⟨hne, hrest⟩ := hkey
    rw [insertMember, if_neg hne]
    split
    · exact List.Perm.refl _
    · exact ((ih hrest).cons (k, v)).trans (List.Perm.swap _ _ _)

theorem insertMember_ordered {key : String} {value : Value} {members : List (String × Value)}
    (h : Ordered members) : Ordered (insertMember key value members) := by
  induction members with
  | nil => exact List.pairwise_singleton _ _
  | cons a rest ih =>
    obtain ⟨k, v⟩ := a
    obtain ⟨hfirst, hrest⟩ := List.pairwise_cons.1 h
    rw [insertMember]
    split_ifs with heq hlt
    · subst heq
      exact List.pairwise_cons.2 ⟨hfirst, hrest⟩
    · refine List.pairwise_cons.2 ⟨?_, h⟩
      intro m hm
      rcases List.mem_cons.1 hm with rfl | hm
      · exact hlt
      · exact String.lt_trans hlt (hfirst m hm)
    · refine List.pairwise_cons.2 ⟨?_, ih hrest⟩
      intro m hm
      rcases mem_of_mem_insertMember hm with rfl | hm
      · have hle : k ≤ key := String.not_lt.1 hlt
        by_contra hnot
        exact heq (String.le_antisymm (String.not_lt.1 hnot) hle)
      · exact hfirst m hm

theorem Ordered.nodup {members : List (String × Value)} (h : Ordered members) :
    (members.map Prod.fst).Nodup := by
  refine List.pairwise_map.2 (List.Pairwise.imp ?_ h)
  intro a b hlt
  exact String.ne_of_lt hlt

theorem foldl_insertMember_ordered (members : List (String × Value))
    {sorted : List (String × Value)} (h : Ordered sorted) :
    Ordered (members.foldl (fun sorted (k, v) => insertMember k v sorted) sorted) := by
  induction members generalizing sorted with
  | nil => exact h
  | cons m ms ih => exact ih (insertMember_ordered h)

theorem sortMembers_ordered (members : List (String × Value)) : Ordered (sortMembers members) :=
  foldl_insertMember_ordered members List.Pairwise.nil

theorem mem_of_mem_foldl {members sorted : List (String × Value)} {m : String × Value}
    (h : m ∈ members.foldl (fun sorted (k, v) => insertMember k v sorted) sorted) :
    m ∈ members ∨ m ∈ sorted := by
  induction members generalizing sorted with
  | nil => exact .inr h
  | cons a ms ih =>
    rcases ih h with hm | hm
    · exact .inl (List.mem_cons_of_mem a hm)
    · rcases mem_of_mem_insertMember hm with rfl | hm
      · exact .inl List.mem_cons_self
      · exact .inr hm

theorem mem_of_mem_sortMembers {members : List (String × Value)} {m : String × Value}
    (h : m ∈ sortMembers members) : m ∈ members := by
  rcases mem_of_mem_foldl h with hm | hm
  · exact hm
  · cases hm

theorem foldl_insertMember_perm {members sorted : List (String × Value)}
    (h : ((members ++ sorted).map Prod.fst).Nodup) :
    (members.foldl (fun sorted (k, v) => insertMember k v sorted) sorted).Perm
      (members ++ sorted) := by
  induction members generalizing sorted with
  | nil => exact List.Perm.refl _
  | cons a ms ih =>
    obtain ⟨k, v⟩ := a
    have hkey : k ∉ sorted.map Prod.fst := by
      rw [List.cons_append, List.map_cons, List.nodup_cons, List.map_append] at h
      exact fun hmem => h.1 (List.mem_append_right _ hmem)
    have hjoin : (ms ++ insertMember k v sorted).Perm ((k, v) :: ms ++ sorted) :=
      ((insertMember_perm v hkey).append_left ms).trans List.perm_middle
    exact (ih ((hjoin.map Prod.fst).nodup_iff.2 h)).trans hjoin

/-- Members of distinct keys are all kept. -/
theorem sortMembers_perm {members : List (String × Value)} (h : (members.map Prod.fst).Nodup) :
    (sortMembers members).Perm members := by
  have hperm := foldl_insertMember_perm (show ((members ++ []).map Prod.fst).Nodup by simpa using h)
  rwa [List.append_nil] at hperm

/-- **Putting members of distinct keys in order keeps the nesting of an object.** -/
theorem ofMembers_nesting {members : List (String × Value)} (h : (members.map Prod.fst).Nodup) :
    (ofMembers members).nesting = membersNesting members + 1 := by
  rw [ofMembers_eq, nesting, membersNesting_congr fun m => (sortMembers_perm h).mem_iff]

/-- An object of any members is sound when they are, and nests no deeper. -/
theorem ofMembers_sound {members : List (String × Value)} (h : SoundMembers members) :
    (ofMembers members).Sound := by
  rw [soundMembers_iff] at h
  rw [ofMembers_eq, Sound, soundMembers_iff]
  exact ⟨(sortMembers_ordered members).nodup, fun m hm => h m (mem_of_mem_sortMembers hm)⟩

theorem ofMembers_nesting_le {members : List (String × Value)} {depth : Nat}
    (h : membersNesting members ≤ depth) : (ofMembers members).nesting ≤ depth + 1 := by
  rw [membersNesting_le_iff] at h
  rw [ofMembers_eq, nesting, Nat.add_le_add_iff_right, membersNesting_le_iff]
  exact fun m hm => h m (mem_of_mem_sortMembers hm)

/-! ## Normal forms -/

mutual
/-- A value with its numbers changed and its objects in key order. -/
def normalize (g : Number → Number) : Value → Value
  | .null => .null
  | .bool b => .bool b
  | .number n => .number (g n)
  | .string s => .string s
  | .array items => .array (normalizeItems g items)
  | .object members => ofMembers (normalizeMembers g members)

/-- Some items with their numbers changed and their objects in key order. -/
def normalizeItems (g : Number → Number) : List Value → List Value
  | [] => []
  | x :: xs => normalize g x :: normalizeItems g xs

/-- Some members with their numbers changed and their objects in key order. -/
def normalizeMembers (g : Number → Number) : List (String × Value) → List (String × Value)
  | [] => []
  | (k, x) :: xs => (k, normalize g x) :: normalizeMembers g xs
end

mutual
/-- The canonical form keeps the numbers. -/
theorem canonical_eq : ∀ v : Value, v.canonical = v.normalize id
  | .null => rfl
  | .bool _ => rfl
  | .number _ => rfl
  | .string _ => rfl
  | .array items => by rw [canonical, normalize, canonicalItems_eq items]
  | .object members => by rw [canonical, normalize, canonicalMembers_eq members]

theorem canonicalItems_eq : ∀ items : List Value, canonicalItems items = normalizeItems id items
  | [] => rfl
  | x :: xs => by rw [canonicalItems, normalizeItems, canonical_eq x, canonicalItems_eq xs]

theorem canonicalMembers_eq :
    ∀ members : List (String × Value), canonicalMembers members = normalizeMembers id members
  | [] => rfl
  | (k, x) :: xs => by
    rw [canonicalMembers, normalizeMembers, canonical_eq x, canonicalMembers_eq xs]
end

theorem normalizeMembers_keys (g : Number → Number) (members : List (String × Value)) :
    (normalizeMembers g members).map Prod.fst = members.map Prod.fst := by
  induction members with
  | nil => rfl
  | cons m ms ih =>
    obtain ⟨k, x⟩ := m
    rw [normalizeMembers, List.map_cons, List.map_cons, ih]

mutual
/-- **The normal form of a sound value nests as deep as the value.** -/
theorem normalize_nesting (g : Number → Number) :
    ∀ v : Value, v.Sound → (v.normalize g).nesting = v.nesting
  | .null, _ => rfl
  | .bool _, _ => rfl
  | .number _, _ => rfl
  | .string _, _ => rfl
  | .array items, h => by
    rw [Sound] at h
    rw [normalize, nesting, nesting, normalizeItems_nesting g items h]
  | .object members, h => by
    rw [Sound] at h
    -- no member is lost, since changing values keeps the keys distinct
    have hkeys : ((normalizeMembers g members).map Prod.fst).Nodup := by
      rw [normalizeMembers_keys]
      exact h.1
    rw [normalize, ofMembers_nesting hkeys, nesting, normalizeMembers_nesting g members h.2]

theorem normalizeItems_nesting (g : Number → Number) : ∀ items : List Value, SoundItems items →
    itemsNesting (normalizeItems g items) = itemsNesting items
  | [], _ => rfl
  | x :: xs, h => by
    rw [SoundItems] at h
    rw [normalizeItems, itemsNesting, itemsNesting, normalize_nesting g x h.1,
      normalizeItems_nesting g xs h.2]

theorem normalizeMembers_nesting (g : Number → Number) :
    ∀ members : List (String × Value), SoundMembers members →
      membersNesting (normalizeMembers g members) = membersNesting members
  | [], _ => rfl
  | (k, x) :: xs, h => by
    rw [SoundMembers] at h
    rw [normalizeMembers, membersNesting, membersNesting, normalize_nesting g x h.1,
      normalizeMembers_nesting g xs h.2]
end

mutual
/-- The normal form of a sound value is sound when sound numbers stay so. -/
theorem normalize_sound {g : Number → Number} (hg : ∀ n, n.Sound → (g n).Sound) :
    ∀ v : Value, v.Sound → (v.normalize g).Sound
  | .null, _ => trivial
  | .bool _, _ => trivial
  | .number n, h => hg n h
  | .string _, _ => trivial
  | .array items, h => by
    rw [Sound] at h
    exact normalizeItems_sound hg items h
  | .object members, h => by
    rw [Sound] at h
    exact ofMembers_sound (normalizeMembers_sound hg members h.2)

theorem normalizeItems_sound {g : Number → Number} (hg : ∀ n, n.Sound → (g n).Sound) :
    ∀ items : List Value, SoundItems items → SoundItems (normalizeItems g items)
  | [], _ => trivial
  | x :: xs, h => by
    rw [SoundItems] at h
    exact ⟨normalize_sound hg x h.1, normalizeItems_sound hg xs h.2⟩

theorem normalizeMembers_sound {g : Number → Number} (hg : ∀ n, n.Sound → (g n).Sound) :
    ∀ members : List (String × Value), SoundMembers members →
      SoundMembers (normalizeMembers g members)
  | [], _ => trivial
  | (k, x) :: xs, h => by
    rw [SoundMembers] at h
    exact ⟨normalize_sound hg x h.1, normalizeMembers_sound hg xs h.2⟩
end

end Value
end Json
end LaneBus
