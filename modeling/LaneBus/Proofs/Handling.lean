import LaneBus.Proofs.Runs

/-! # What a member has handled

At an address that a member reads, the completed offsets are those from its start
up to its position, each once and in order, and this stays so across passes that
fail (`Bus.run_exactlyOnce`).  Behind it is what a single pass does to positions.
A pass that succeeds has completed all the records it counts.  A pass that fails
has completed those before the one it failed on; every address is left at the
first of its records from there on, or where the pass had moved it if there are
none (`Session.pass_error`).
-/
namespace LaneBus

/-- The offsets of the records of one address that were completed, in the order of
the attempts. -/
def completedOffsets (a : String) (ts : List Attempt) : List Nat :=
  ((attemptsAt a ts).filter (·.completed)).map (·.record.offset)

namespace Session

variable {σ : Type} {x : Session σ} {now : Timestamp} {waited : Bool}

/-- A pass that succeeds has completed as many records as it says. -/
theorem pass_ok {n : Nat} (hw : x.client.Wired) (h : (x.pass now waited).1 = .ok n) :
    (x.passAttempts now waited).length = n ∧
      ∀ t ∈ x.passAttempts now waited, t.completed = true := by
  unfold passAttempts
  unfold pass at h
  cases hgather : x.gather now waited with
  | mk outcome y =>
    cases outcome with
    | error e => rw [hgather] at h; cases h
    | ok records =>
      simp only [hgather] at h ⊢
      rcases gather_cases hw hgather with ⟨hnil, rfl⟩ | ⟨hrun, htook⟩
      · obtain rfl : records = [] := hnil
        obtain rfl : 0 = n := Except.ok.inj h
        exact ⟨rfl, fun t ht => (by cases ht)⟩
      · change Took _ records y at htook
        have hws := Client.synced_wired hw x.broker
        rcases htook.dispatched hws hrun (fun a ha => Client.synced_tracked hw hrun x.broker ha)
            now with ⟨z, hz, hall, -, -⟩ | ⟨e, z, -, -, -, hz, -⟩
        · rw [hz] at h
          obtain rfl : records.length = n := Except.ok.inj h
          rw [hall]
          refine ⟨List.length_map .., fun t ht => ?_⟩
          obtain ⟨r, -, rfl⟩ := List.mem_map.mp ht
          rfl
        · rw [hz] at h; cases h

/-- How a failed pass `x`, `z` leaves its addresses.  It has taken no records and
moved no position; or it has completed some of its records, failed on the next,
and every address is at the first of its records from there on, or else where
the records were taken up to. -/
inductive Halted (x : Session σ) (now : Timestamp) (waited : Bool) (z : Session σ) : Prop where
  | early (hj : x.passAttempts now waited = [])
      (hpos : ∀ a p, x.client.connection.positions.get? a = some p →
        z.client.connection.positions.get? a = some p)
  | midway (y : Session σ) (done : List Record) (r : Record) (rest : List Record)
      (htaken : x.gather now waited = (.ok (done ++ r :: rest), y))
      (hj : x.passAttempts now waited = (done.map fun r => ⟨r, true⟩) ++ [⟨r, false⟩])
      (hpos : ∀ a, z.client.connection.positions.get? a =
        (offsetsAt a (r :: rest)).head?.or (y.client.connection.positions.get? a))

theorem pass_error {e : BusError} (hw : x.client.Wired) (h : (x.pass now waited).1 = .error e) :
    x.Halted now waited (x.pass now waited).2 := by
  cases hgather : x.gather now waited with
  | mk outcome y =>
    cases outcome with
    | error e =>
      have hpass : x.pass now waited = (.error e, y) := by rw [pass, hgather]
      have hnil : x.passAttempts now waited = [] := by rw [passAttempts, hgather]
      rw [hpass]
      refine .early hnil fun a p hp => ?_
      rcases gather_cases hw hgather with ⟨-, rfl⟩ | ⟨-, htook⟩
      · exact hp
      · have hsynced := x.client.get?_synced x.broker a
        rw [hp, Option.some_or] at hsynced
        obtain ⟨n, hnone, hpos⟩ := htook.advance.tracked a p hsynced
        obtain rfl : n = 0 := by simpa [taken] using hnone.symm
        exact hpos
    | ok records =>
      unfold pass at h ⊢
      simp only [hgather] at h ⊢
      rcases gather_cases hw hgather with ⟨hnil, rfl⟩ | ⟨hrun, htook⟩
      · obtain rfl : records = [] := hnil
        cases h
      · change Took _ records y at htook
        have hws := Client.synced_wired hw x.broker
        rcases htook.dispatched hws hrun (fun a ha => Client.synced_tracked hw hrun x.broker ha)
            now with ⟨z, hz, -⟩ | ⟨e, z, done, r, rest, hz, rfl, hj, hpos, -⟩
        · rw [hz] at h; cases h
        · rw [hz]
          exact .midway y done r rest hgather (by rw [passAttempts, hgather]; exact hj) hpos

end Session

namespace Bus

variable {σ : Type} {b : Bus σ}

/-- Nothing is skipped or repeated by a member. -/
structure ExactlyOnce (b : Bus σ) : Prop where
  /-- The completed offsets of an address are those from the start up to the
  position. -/
  completed : ∀ m ∈ b.members, ∀ a p, m.position? a = some p →
    ∃ start, m.started a = some start ∧ start ≤ p ∧
      completedOffsets a m.journal = List.range' start (p - start)
  /-- Nothing is handled before the connection knows the address. -/
  unread : ∀ m ∈ b.members, ∀ a, m.started a = none → completedOffsets a m.journal = []
  /-- A pass that succeeds has completed all the records it counts. -/
  passed : ∀ m ∈ b.members, ∀ now waited n,
    ((m.session b.broker b.state).pass now waited).1 = .ok n →
      ((m.session b.broker b.state).passAttempts now waited).length = n ∧
        ∀ t ∈ (m.session b.broker b.state).passAttempts now waited, t.completed = true
  /-- A pass that fails leaves every address at its first record that was not
  completed. -/
  failed : ∀ m ∈ b.members, ∀ now waited e,
    ((m.session b.broker b.state).pass now waited).1 = .error e →
      (m.session b.broker b.state).Halted now waited
        ((m.session b.broker b.state).pass now waited).2
  /-- Whatever happens next, the next attempt at an address is at the position. -/
  resumed : ∀ (i : Nat) m, b.members[i]? = some m → ∀ later : List (Action σ),
    ∃ m' new, (b.run later).members[i]? = some m' ∧ m'.journal = m.journal ++ new ∧
      ∀ a p, m.position? a = some p →
        ∀ t, (attemptsAt a new).head? = some t → t.record.offset = p

theorem Sound.exactlyOnce (hs : b.Sound) : b.ExactlyOnce where
  completed m hm a p hp := by
    cases (hs.member m hm).standing a with
    | unread _ hnone _ => rw [hp] at hnone; cases hnone
    | closed _ _ hnone _ _ => rw [hp] at hnone; cases hnone
    | reading start hstart hpos hj =>
      obtain rfl : p = _ := Option.some.inj (hp.symm.trans hpos)
      refine ⟨start, hstart, Nat.le_add_right .., ?_⟩
      rw [Nat.add_sub_cancel_left]
      exact hj.offsets
  unread m hm a hstart := by
    rw [completedOffsets, (hs.member m hm).attemptsAt_eq_nil hstart]
    rfl
  passed m hm now waited n h := Session.pass_ok (hs.member m hm).wired h
  failed m hm now waited e h := Session.pass_error (hs.member m hm).wired h
  resumed i m hm later := by
    obtain ⟨m', hm', hcont⟩ := (run_evolves hs later).member i m hm
    -- the first new attempt goes on where the old ones end
    obtain ⟨new, hnew⟩ := hcont.journal
    refine ⟨m', new, hm', hnew.symm, fun a p hp t ht => ?_⟩
    cases (hs.member m (List.mem_of_getElem? hm)).standing a with
    | unread _ hnone _ => rw [hp] at hnone; cases hnone
    | closed _ _ hnone _ _ => rw [hp] at hnone; cases hnone
    | reading start hstart hpos hj =>
      have hin := ((run_sound hs later).member m' (List.mem_of_getElem? hm')).inOrder
        (hcont.started a start hstart)
      rw [← hnew, attemptsAt_append, InOrder.append] at hin
      obtain rfl : p = _ := Option.some.inj (hp.symm.trans hpos)
      exact hin.2.head ht

/-- **Nothing is skipped or repeated**, in any run on any broker. -/
theorem run_exactlyOnce (broker : Broker) (state : σ) (actions : List (Action σ)) :
    (run { broker, state } actions).ExactlyOnce :=
  (run_sound (sound_of_no_members broker state) actions).exactlyOnce

end Bus
end LaneBus
