import LaneBus.Broker.Connection

/-! # Read positions

A fetch hands out records and moves read positions in one go.  This module says
how the two belong together, one address at a time: the records of an address
come in the order of their offsets, the first at the position before the fetch,
and the position after the fetch is behind the last (`Advance`).  Positions that
have moved in this way can be composed (`Advance.trans`), so the statement holds
of a fetch over any list of addresses, whatever the sizes of their logs
(`fetch_ok`), and it does not depend on how the records of different addresses
are interleaved (`Advance.congr`).
-/
namespace LaneBus

/-- The offsets of the records of one address, in the order of the records. -/
def offsetsAt (a : String) (records : List Record) : List Nat :=
  (records.filter fun r => r.address = a).map (·.offset)

@[simp] theorem offsetsAt_nil (a : String) : offsetsAt a [] = [] := rfl

@[simp] theorem offsetsAt_append (a : String) (rs rs' : List Record) :
    offsetsAt a (rs ++ rs') = offsetsAt a rs ++ offsetsAt a rs' := by
  simp [offsetsAt]

theorem offsetsAt_cons (a : String) (r : Record) (rs : List Record) :
    offsetsAt a (r :: rs) =
      if r.address = a then r.offset :: offsetsAt a rs else offsetsAt a rs := by
  by_cases h : r.address = a <;> simp [offsetsAt, h]

theorem offsetsAt_eq_nil {a : String} {rs : List Record} :
    offsetsAt a rs = [] ↔ ∀ r ∈ rs, r.address ≠ a := by
  simp [offsetsAt]

/-! ## Logs that have grown -/

namespace Broker

/-- Some time has passed without a commit: every log may have grown. -/
structure Grows (b b' : Broker) : Prop where
  log : ∀ a, b.log a <+: b'.log a
  committed : b'.committed = b.committed

namespace Grows

variable {b b' b'' : Broker}

theorem refl (b : Broker) : Grows b b :=
  ⟨fun _ => List.prefix_rfl, rfl⟩

theorem trans (h : Grows b b') (h' : Grows b' b'') : Grows b b'' :=
  ⟨fun a => (h.log a).trans (h'.log a), h'.committed.trans h.committed⟩

theorem of_logs (hl : b'.logs = b.logs) (hc : b'.committed = b.committed) : Grows b b' :=
  ⟨fun a => log_of_logs hl a ▸ List.prefix_rfl, hc⟩

theorem append (b : Broker) (address payload : String) : Grows b (b.append address payload) where
  log a := by
    rw [log_append]
    split
    · subst a; exact List.prefix_append ..
    · exact List.prefix_rfl
  committed := rfl

end Grows

/-- The record is in the log of its address, at its offset. -/
def Holds (b : Broker) (r : Record) : Prop := (b.log r.address)[r.offset]? = some r.payload

theorem holds_of_prefix {b b' : Broker} {r : Record} (h : b.log r.address <+: b'.log r.address)
    (hr : b.Holds r) : b'.Holds r := by
  obtain ⟨more, hmore⟩ := h
  obtain ⟨hlt, -⟩ := List.getElem?_eq_some_iff.mp hr
  rw [Holds, ← hmore, List.getElem?_append_left hlt]
  exact hr

theorem Grows.holds {b b' : Broker} (h : Grows b b') {r : Record} (hr : b.Holds r) :
    b'.Holds r :=
  holds_of_prefix (h.log r.address) hr

/-! ## The records that are ready -/

variable (b : Broker) (a : String) (start : Nat)

theorem address_of_mem_ready {r : Record} (h : r ∈ b.ready a start) : r.address = a := by
  obtain ⟨⟨payload, offset⟩, -, rfl⟩ := List.mem_map.mp h
  rfl

theorem holds_of_mem_ready {r : Record} (h : r ∈ b.ready a start) : b.Holds r := by
  obtain ⟨⟨payload, offset⟩, hmem, rfl⟩ := List.mem_map.mp h
  obtain ⟨hle, hlt, hget⟩ := List.mem_zipIdx hmem
  rw [List.getElem_take, List.getElem_drop] at hget
  have hin : offset < (b.log a).length := by
    rw [List.length_take, List.length_drop] at hlt
    omega
  simp only [Nat.add_sub_cancel' hle] at hget
  exact List.getElem?_eq_some_iff.mpr ⟨hin, hget.symm⟩

theorem offsetsAt_ready : offsetsAt a (b.ready a start) =
    List.range' start (b.ready a start).length := by
  have hall : (b.ready a start).filter (fun r => r.address = a) = b.ready a start :=
    List.filter_eq_self.mpr fun r hr => decide_eq_true (b.address_of_mem_ready a start hr)
  rw [offsetsAt, hall]
  simp only [ready, List.map_map, List.length_map, List.length_zipIdx]
  exact List.zipIdx_map_snd ..

theorem offsetsAt_ready_of_ne {other : String} (h : other ≠ a) :
    offsetsAt other (b.ready a start) = [] :=
  offsetsAt_eq_nil.mpr fun r hr => by
    rw [b.address_of_mem_ready a start hr]
    exact Ne.symm h

end Broker

/-! ## Positions that have moved -/

/-- Positions have moved over some records: the records of every address are
consecutive from the position before on, and end right before the one after. -/
structure Advance (before : Table String Nat) (records : List Record)
    (after : Table String Nat) : Prop where
  untracked : ∀ a, before.get? a = none → offsetsAt a records = [] ∧ after.get? a = none
  tracked : ∀ a p, before.get? a = some p →
    ∃ n, offsetsAt a records = List.range' p n ∧ after.get? a = some (p + n)

namespace Advance

variable {s t u : Table String Nat} {rs rs' : List Record}

theorem refl (t : Table String Nat) : Advance t [] t :=
  ⟨fun _ h => ⟨rfl, h⟩, fun _ _ h => ⟨0, rfl, h⟩⟩

theorem trans (h : Advance s rs t) (h' : Advance t rs' u) : Advance s (rs ++ rs') u where
  untracked a ha := by
    obtain ⟨hr, ht⟩ := h.untracked a ha
    obtain ⟨hr', hu⟩ := h'.untracked a ht
    exact ⟨by rw [offsetsAt_append, hr, hr']; rfl, hu⟩
  tracked a p ha := by
    obtain ⟨n, hr, ht⟩ := h.tracked a p ha
    obtain ⟨k, hr', hu⟩ := h'.tracked a (p + n) ht
    exact ⟨n + k, by rw [offsetsAt_append, hr, hr', List.range'_append_1], by rw [hu, Nat.add_assoc]⟩

/-- Only the order within each address counts. -/
theorem congr (h : Advance s rs t) (hr : ∀ a, offsetsAt a rs' = offsetsAt a rs) :
    Advance s rs' t where
  untracked a ha := by rw [hr]; exact h.untracked a ha
  tracked a p ha := by rw [hr]; exact h.tracked a p ha

theorem isSome (h : Advance s rs t) {a : String} (ha : (s.get? a).isSome) :
    (t.get? a).isSome := by
  obtain ⟨p, hp⟩ := Option.isSome_iff_exists.mp ha
  obtain ⟨n, -, ht⟩ := h.tracked a p hp
  rw [ht]; rfl

/-- Taking what is ready at one address. -/
theorem ready (b : Broker) {a : String} {start : Nat} (h : t.get? a = some start) :
    Advance t (b.ready a start)
      (if (b.ready a start).isEmpty then t
        else t.insert a (start + (b.ready a start).length)) := by
  by_cases hnil : b.ready a start = []
  · rw [hnil]; exact refl t
  · have hne : (b.ready a start).isEmpty = false := by simpa using hnil
    rw [hne, if_neg Bool.false_ne_true]
    constructor
    · intro other hother
      have ho : a ≠ other := fun he => by rw [← he, h] at hother; cases hother
      exact ⟨b.offsetsAt_ready_of_ne a start ho.symm, by rw [Table.get?_insert, if_neg ho, hother]⟩
    · intro other p hother
      by_cases ho : a = other
      · subst ho
        obtain rfl : start = p := Option.some.inj (h.symm.trans hother)
        exact ⟨_, b.offsetsAt_ready a start, Table.get?_insert_self ..⟩
      · exact ⟨0, b.offsetsAt_ready_of_ne a start (Ne.symm ho),
          by rw [Table.get?_insert, if_neg ho, hother]; rfl⟩

end Advance

/-! ## The calls of a connection -/

namespace Connection

variable {b b' : Broker} {c c' : Connection} {now : Timestamp} {positions final : Table String Nat}
  {addresses : List String} {records : List Record}

/-- A walk that goes through takes what is ready at its first address, and goes on from the
position behind it. -/
theorem takeReady_cons {a : String} {rest : List String}
    (h : takeReady b positions (a :: rest) = (.ok records, final)) :
    ∃ start others, positions.get? a = some start ∧ records = b.ready a start ++ others ∧
      takeReady b (if (b.ready a start).isEmpty then positions
        else positions.insert a (start + (b.ready a start).length)) rest =
          (.ok others, final) := by
  unfold takeReady at h
  split at h
  · cases h
  · rename_i start hstart
    dsimp only at h
    split at h
    · cases h
    · rename_i others moved hrest
      obtain ⟨rfl, rfl⟩ : b.ready a start ++ others = records ∧ moved = final := by
        simpa using h
      exact ⟨start, others, hstart, rfl, hrest⟩

theorem takeReady_advance (h : takeReady b positions addresses = (.ok records, final)) :
    Advance positions records final := by
  induction addresses generalizing positions records with
  | nil =>
    obtain ⟨rfl, rfl⟩ : [] = records ∧ positions = final := by simpa [takeReady] using h
    exact .refl _
  | cons a rest ih =>
    obtain ⟨start, others, hstart, rfl, hrest⟩ := takeReady_cons h
    exact (Advance.ready b hstart).trans (ih hrest)

/-- A fetch from addresses that all have positions goes through. -/
theorem exists_takeReady (h : ∀ a ∈ addresses, (positions.get? a).isSome) :
    ∃ records final, takeReady b positions addresses = (.ok records, final) := by
  induction addresses generalizing positions with
  | nil => exact ⟨[], positions, rfl⟩
  | cons a rest ih =>
    obtain ⟨start, hstart⟩ := Option.isSome_iff_exists.mp (h a (List.mem_cons_self ..))
    obtain ⟨others, final, hrest⟩ := ih fun other hm =>
      (Advance.ready b hstart).isSome (h other (List.mem_cons_of_mem _ hm))
    exact ⟨b.ready a start ++ others, final, by simp only [takeReady, hstart, hrest]⟩

theorem mem_takeReady (h : takeReady b positions addresses = (.ok records, final))
    {r : Record} (hr : r ∈ records) : r.address ∈ addresses ∧ b.Holds r := by
  induction addresses generalizing positions records with
  | nil =>
    obtain ⟨rfl, -⟩ : [] = records ∧ positions = final := by simpa [takeReady] using h
    cases hr
  | cons a rest ih =>
    obtain ⟨start, others, -, rfl, hrest⟩ := takeReady_cons h
    rcases List.mem_append.mp hr with hr | hr
    · refine ⟨?_, b.holds_of_mem_ready a start hr⟩
      rw [b.address_of_mem_ready a start hr]
      exact List.mem_cons_self ..
    · obtain ⟨ha, hholds⟩ := ih hrest hr
      exact ⟨List.mem_cons_of_mem _ ha, hholds⟩

/-- A note about fetched records leaves logs and commits alone. -/
theorem noteFetched_logs_committed (identity : Identity) (now : Timestamp) (b : Broker)
    (records : List Record) :
    (noteFetched identity now b records).logs = b.logs ∧
      (noteFetched identity now b records).committed = b.committed := by
  induction records generalizing b with
  | nil => exact ⟨rfl, rfl⟩
  | cons r rest ih =>
    unfold noteFetched
    split
    · exact ih b
    · exact ih _

/-- **A fetch that goes through** moves the positions over the records it returns,
which are in the logs of the addresses asked for, and changes nothing else of the
connection, the logs or the commits. -/
theorem fetch_ok (h : c.fetch b now addresses = (.ok records, c', b')) :
    ∃ positions, c' = { c with positions } ∧ Advance c.positions records positions ∧
      (∀ r ∈ records, r.address ∈ addresses ∧ b.Holds r) ∧
      b'.logs = b.logs ∧ b'.committed = b.committed := by
  unfold fetch at h
  split at h
  · cases h
  · split at h
    · cases h
    · rename_i rs positions hready
      obtain ⟨rfl, rfl, rfl⟩ : rs = records ∧ { c with positions } = c' ∧
          noteFetched c.identity now b rs = b' := by simpa using h
      exact ⟨positions, rfl, takeReady_advance hready, fun r hr => mem_takeReady hready hr,
        noteFetched_logs_committed c.identity now b rs⟩

/-- A fetch from addresses that all have positions changes nothing when it fails. -/
theorem fetch_error {e : TransportError} (h : c.fetch b now addresses = (.error e, c', b'))
    (hall : ∀ a ∈ addresses, (c.positions.get? a).isSome) : c' = c ∧ b' = b := by
  unfold fetch at h
  split at h
  · obtain ⟨-, rfl, rfl⟩ : _ ∧ c = c' ∧ b = b' := by simpa using h
    exact ⟨rfl, rfl⟩
  · obtain ⟨rs, final, hready⟩ := exists_takeReady (b := b) hall
    rw [hready] at h
    cases h

/-- New addresses are read from the committed offset on; known ones stay where
they are. -/
theorem get?_track (b : Broker) (group a : String) (positions : Table String Nat)
    (addresses : List String) :
    (track b group positions addresses).get? a =
      (positions.get? a).or
        (if a ∈ addresses then some ((b.committedOffset group a).getD 0) else none) := by
  induction addresses generalizing positions with
  | nil => simp [track]
  | cons other rest ih =>
    unfold track
    split
    · rename_i p hp
      rw [ih]
      by_cases ha : a = other
      · subst ha; rw [hp]; rfl
      · simp [ha]
    · rename_i hp
      rw [ih, Table.get?_insert]
      by_cases ha : a = other
      · subst ha; simp [hp]
      · simp [ha, Ne.symm ha]

end Connection
end LaneBus
