import LaneBus.Client
import LaneBus.Proofs.Positions

/-! # Dispatching a batch

A batch of records is dispatched in order, up to the first record that cannot be
dealt with.  What has been tried is kept as a list of attempts, each with a mark
that says whether the record was dealt with (`Session.attempts`).  The mark is
not read off the result of the program: a record is **completed** when its
callback has succeeded and everything it queued could be sent, when the report of
its failure could be sent, or when the failure was only logged
(`Session.completes`).

`Session.dispatchAll_cases` says all that a batch can do.  Either every record is
completed, or there is a first one that is not, and the connection goes back to
it and those behind it.  Going back moves every address to its first pending
offset (`Session.exists_rewind`), whatever lanes and addresses are mixed.
-/
namespace LaneBus

/-! ## Going back -/

namespace Session

variable {σ : Type} {x : Session σ}

/-- The first offset of an address is the least one. -/
theorem get?_firstOffsets (a : String) (rs : List Record) (firsts : Table String Nat) :
    (firstOffsets rs firsts).get? a = ((firsts.get? a).toList ++ offsetsAt a rs).min? := by
  induction rs generalizing firsts with
  | nil => cases h : firsts.get? a <;> simp [firstOffsets, h]
  | cons r rest ih =>
    rw [firstOffsets, ih, Table.get?_insert, offsetsAt_cons]
    by_cases ha : r.address = a
    · subst ha
      cases firsts.get? r.address <;> simp only [if_true] <;> rfl
    · simp [ha]

/-- Seeking moves the addresses it is asked to and nothing else. -/
theorem exists_seekAll {entries : List (String × Nat)}
    (hopen : x.client.connection.closed = false) (hup : x.client.connection.outage.seek = false)
    (hnodup : (entries.map Prod.fst).Nodup)
    (htracked : ∀ e ∈ entries, (x.client.connection.positions.get? e.1).isSome) :
    ∃ positions, x.seekAll entries = x.withConnection { x.client.connection with positions } ∧
      ∀ a, positions.get? a =
        (Table.valueAmong? a entries).or (x.client.connection.positions.get? a) := by
  induction entries generalizing x with
  | nil => exact ⟨x.client.connection.positions, rfl, fun a => rfl⟩
  | cons e rest ih =>
    obtain ⟨address, offset⟩ := e
    obtain ⟨hfresh, hrest⟩ := List.nodup_cons.mp hnodup
    obtain ⟨p, hp⟩ := Option.isSome_iff_exists.mp (htracked _ (List.mem_cons_self ..))
    have hseek : x.client.connection.seek address offset =
        .ok { x.client.connection with
          positions := x.client.connection.positions.insert address offset } := by
      simp [Connection.seek, Connection.usable, hopen, hup, hp]
    obtain ⟨positions, hpos, hget⟩ := ih (x := x.withConnection { x.client.connection with
        positions := x.client.connection.positions.insert address offset }) hopen hup hrest
      fun e he => by
        simp only [withConnection, Table.get?_insert]
        split
        · rfl
        · exact htracked e (List.mem_cons_of_mem _ he)
    refine ⟨positions, ?_, fun a => ?_⟩
    · rw [seekAll, hseek]; exact hpos
    · rw [hget, Table.valueAmong?]
      simp only [withConnection, Table.get?_insert]
      by_cases ha : address = a
      · subst ha
        have hnone : Table.valueAmong? address rest = none :=
          Table.valueAmong?_eq_none hfresh
        simp [hnone]
      · simp [ha]

/-- **Going back** moves every address to the least of its pending offsets, and
leaves the other addresses where they are. -/
theorem exists_rewind {pending : List Record}
    (hopen : x.client.connection.closed = false) (hup : x.client.connection.outage.seek = false)
    (htracked : ∀ r ∈ pending, (x.client.connection.positions.get? r.address).isSome) :
    ∃ positions, x.rewind pending = x.withConnection { x.client.connection with positions } ∧
      ∀ a, positions.get? a =
        (offsetsAt a pending).min?.or (x.client.connection.positions.get? a) := by
  have hfirst (a : String) :
      (firstOffsets pending .empty).get? a = (offsetsAt a pending).min? := by
    simp [get?_firstOffsets]
  obtain ⟨positions, hpos, hget⟩ := exists_seekAll hopen hup (firstOffsets pending .empty).nodup
    fun e he => by
      have hsome := Table.isSome_get?_of_mem he
      rw [hfirst] at hsome
      -- an address among the first offsets is that of some pending record
      have hne : offsetsAt e.1 pending ≠ [] := fun hnil => by simp [hnil] at hsome
      obtain ⟨r, hr, ha⟩ : ∃ r ∈ pending, r.address = e.1 := by
        simpa [offsetsAt_eq_nil] using hne
      rw [← ha]
      exact htracked r hr
  refine ⟨positions, hpos, fun a => ?_⟩
  rw [hget, ← hfirst]
  rfl

/-! ## One record -/

/-- Nothing has happened but sending: the client is as it was. -/
structure Steady (x y : Session σ) : Prop where
  client : y.client = x.client
  grows : x.broker.Grows y.broker

theorem Steady.refl (x : Session σ) : x.Steady x :=
  ⟨rfl, .refl _⟩

theorem Steady.trans {x y z : Session σ} (h : x.Steady y) (h' : y.Steady z) : x.Steady z :=
  ⟨h'.client.trans h.client, h.grows.trans h'.grows⟩

/-- What callbacks keep and what is logged does not count. -/
theorem Steady.of_same {x y z : Session σ} (h : y.Steady z) (hc : y.client = x.client)
    (hb : y.broker = x.broker) : x.Steady z :=
  ⟨h.client.trans hc, hb ▸ h.grows⟩

end Session

/-- Whether records can be sent one after the other. -/
def Connection.sendsAll (c : Connection) (b : Broker) : List Outgoing → Bool
  | [] => true
  | r :: rest =>
    match c.send b r.address r.payload with
    | .error _ => false
    | .ok b => sendsAll c b rest

namespace Session

variable {σ : Type} {x : Session σ} {now : Timestamp}

/-- Whether a record is dealt with: its callback succeeds and all that it has
queued is sent, or its report is sent, or its failure is only logged. -/
def completes (x : Session σ) (now : Timestamp) (r : Record) : Bool :=
  match x.client.receiver? r.address with
  | none => false
  | some (s, lane) =>
    let reaction := s.handler r lane { provenance := x.client.provenance, now } x.state
    match reaction.delivery with
    | .handled => x.client.connection.sendsAll x.broker reaction.outbox.pending
    | .rejected _ report =>
      x.client.connection.sendsAll x.broker
        [{ address := Lane.error.address s.topic, payload := report }]
    | .dropped _ => true

theorem send_steady (x : Session σ) (r : Outgoing) : x.Steady (x.send r).2 := by
  unfold send
  split
  · exact .refl x
  · rename_i broker hsend
    unfold Connection.send at hsend
    split at hsend
    · cases hsend
    · cases hsend
      exact ⟨rfl, .append ..⟩

theorem sendAll_steady (x : Session σ) (rs : List Outgoing) : x.Steady (x.sendAll rs).2 := by
  induction rs generalizing x with
  | nil => exact .refl x
  | cons r rest ih =>
    have hsend := x.send_steady r
    unfold sendAll
    split
    · rename_i y hy
      rw [hy] at hsend
      exact hsend.trans (ih y)
    · exact hsend

theorem sendAll_eq_ok (x : Session σ) (rs : List Outgoing) :
    (x.sendAll rs).1 = .ok () ↔ x.client.connection.sendsAll x.broker rs = true := by
  induction rs generalizing x with
  | nil => simp [sendAll, Connection.sendsAll]
  | cons r rest ih =>
    cases hsend : x.client.connection.send x.broker r.address r.payload with
    | error e => simp [sendAll, send, Connection.sendsAll, hsend]
    | ok broker =>
      simp only [sendAll, send, Connection.sendsAll, hsend]
      exact ih { x with broker }

theorem send_eq_ok (x : Session σ) (r : Outgoing) :
    (x.send r).1 = .ok () ↔ x.client.connection.sendsAll x.broker [r] = true := by
  cases hsend : x.client.connection.send x.broker r.address r.payload <;>
    simp [send, Connection.sendsAll, hsend]

theorem dispatch_steady (x : Session σ) (now : Timestamp) (r : Record) :
    x.Steady (x.dispatch now r).2 := by
  unfold dispatch
  split
  · exact ⟨rfl, .refl _⟩
  · rename_i s lane hs
    dsimp only
    split
    · exact (sendAll_steady ..).of_same rfl rfl
    · exact (send_steady ..).of_same rfl rfl
    · exact ⟨rfl, .refl _⟩

/-- A dispatch goes through just when it completes its record. -/
theorem dispatch_eq_ok {r : Record} (h : (x.client.receiver? r.address).isSome) :
    (x.dispatch now r).1 = .ok () ↔ x.completes now r = true := by
  obtain ⟨⟨s, lane⟩, hs⟩ := Option.isSome_iff_exists.mp h
  unfold dispatch completes
  simp only [hs]
  generalize s.handler r lane { provenance := x.client.provenance, now } x.state = reaction
  cases reaction.delivery with
  | handled => exact sendAll_eq_ok ..
  | rejected f report => exact send_eq_ok ..
  | dropped f => simp

end Session

/-! ## A batch -/

/-- A record that was handed to its subscription. -/
structure Attempt where
  record : Record
  completed : Bool
  deriving DecidableEq, Repr

namespace Session

variable {σ : Type} {x : Session σ} {now : Timestamp}

/-- The attempts of a batch: its records in order, up to the first that is not
completed. -/
def attempts (x : Session σ) (now : Timestamp) : List Record → List Attempt
  | [] => []
  | r :: rest =>
    if x.completes now r then ⟨r, true⟩ :: attempts (x.dispatch now r).2 now rest
    else [⟨r, false⟩]

/-- **All that a batch can do**, when every record has a subscription. -/
theorem dispatchAll_cases {records : List Record}
    (h : ∀ r ∈ records, (x.client.receiver? r.address).isSome) (now : Timestamp) :
    (∃ y, x.dispatchAll now records = (.ok (), y) ∧ x.Steady y ∧
      x.attempts now records = records.map fun r => ⟨r, true⟩) ∨
    (∃ e done r rest y, records = done ++ r :: rest ∧
      x.dispatchAll now records = (.error e, y.rewind (r :: rest)) ∧ x.Steady y ∧
      x.attempts now records = (done.map fun r => ⟨r, true⟩) ++ [⟨r, false⟩]) := by
  induction records generalizing x with
  | nil => exact .inl ⟨x, rfl, .refl x, rfl⟩
  | cons r rest ih =>
    have hr : (x.dispatch now r).1 = .ok () ↔ x.completes now r = true :=
      dispatch_eq_ok (h r (List.mem_cons_self ..))
    have hsteady := x.dispatch_steady now r
    unfold dispatchAll attempts
    cases hd : x.dispatch now r with
    | mk outcome y =>
      rw [hd] at hr hsteady
      cases outcome with
      | error e =>
        have hc : x.completes now r = false := by simpa using mt hr.mpr
        exact .inr ⟨e, [], r, rest, y, rfl, rfl, hsteady, by simp [hc]⟩
      | ok u =>
        have hc : x.completes now r = true := hr.mp rfl
        have hrest : ∀ r ∈ rest, (y.client.receiver? r.address).isSome := fun r hm => by
          rw [hsteady.client]; exact h r (List.mem_cons_of_mem _ hm)
        rcases ih hrest with ⟨z, hz, hyz, hall⟩ | ⟨e, done, r', rest', z, rfl, hz, hyz, hall⟩
        · exact .inl ⟨z, hz, hsteady.trans hyz, by simp [hc, hall]⟩
        · exact .inr ⟨e, r :: done, r', rest', z, rfl, hz, hsteady.trans hyz, by simp [hc, hall]⟩

end Session
end LaneBus
