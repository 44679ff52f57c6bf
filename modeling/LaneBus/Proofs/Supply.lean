import LaneBus.Proofs.Members

/-! # Clients on a connection that is up

When no call of its connection fails, a running client gathers records, and comes back
empty-handed only when there is nothing left to read at any of its addresses
(`Session.gather_up`).  Its commits make all of its positions durable
(`Session.commit_up`), and its signs of life go through.

What there is to read is a list of records (`Broker.recordsFrom`): records that are in
the log and whose offsets are consecutive are the first ones of it
(`Broker.eq_take_recordsFrom`).
-/
namespace LaneBus

/-! ## Records from an offset on -/

namespace Broker

/-- The records of an address from an offset on. -/
def recordsFrom (b : Broker) (a : String) (start : Nat) : List Record :=
  (((b.log a).drop start).zipIdx start).map fun (payload, offset) =>
    { address := a, offset, payload }

/-- The records of an address that a group has not handled yet. -/
def unread (b : Broker) (group a : String) : List Record :=
  b.recordsFrom a ((b.committedOffset group a).getD 0)

variable {b : Broker} {a : String} {start : Nat}

@[simp] theorem length_recordsFrom (b : Broker) (a : String) (start : Nat) :
    (b.recordsFrom a start).length = (b.log a).length - start := by
  simp [recordsFrom]

/-- A record in the log is the first one from its offset on. -/
theorem Holds.recordsFrom {r : Record} (h : b.Holds r) :
    b.recordsFrom r.address r.offset = r :: b.recordsFrom r.address (r.offset + 1) := by
  obtain ⟨hlt, hget⟩ := List.getElem?_eq_some_iff.mp h
  rw [Broker.recordsFrom, List.drop_eq_getElem_cons hlt, hget, List.zipIdx_cons, List.map_cons]
  rfl

/-- Records of one address with consecutive offsets are the first ones from there on. -/
theorem eq_take_recordsFrom {n : Nat} {rs : List Record}
    (hrs : ∀ r ∈ rs, r.address = a ∧ b.Holds r)
    (hoffsets : rs.map (·.offset) = List.range' start n) :
    rs = (b.recordsFrom a start).take n := by
  induction rs generalizing start n with
  | nil =>
    obtain rfl : n = 0 := by simpa using hoffsets.symm
    exact List.take_zero.symm
  | cons r rest ih =>
    obtain ⟨⟨rfl, hholds⟩, hrest⟩ := List.forall_mem_cons.mp hrs
    cases n with
    | zero => cases hoffsets
    | succ n =>
      rw [List.range'_succ, List.map_cons] at hoffsets
      obtain ⟨rfl, htail⟩ := List.cons.inj hoffsets
      rw [hholds.recordsFrom, List.take_succ_cons, ← ih hrest htail]

/-- Nothing is ready only at the end of a log. -/
theorem length_le_of_ready_eq_nil (h : b.ready a start = []) : (b.log a).length ≤ start := by
  have hlength := congrArg List.length h
  simp only [ready, List.length_map, List.length_zipIdx, List.length_take, List.length_drop,
    List.length_nil] at hlength
  have hpos : 0 < maxFetch := by decide
  omega

end Broker

/-! ## Connections that are up -/

/-- No call of a connection fails. -/
structure Connection.Up (c : Connection) : Prop where
  opened : c.closed = false
  outage : c.outage = {}

namespace Connection

variable {c : Connection} {b : Broker} {now : Timestamp} {positions final : Table String Nat}
  {addresses : List String}

theorem Up.usable (h : c.Up) (what : String) : c.usable false what = .ok () := by
  rw [Connection.usable, if_neg Bool.false_ne_true, h.opened, if_neg Bool.false_ne_true]

theorem Up.send (h : c.Up) (b : Broker) (address payload : String) :
    c.send b address payload = .ok (b.append address payload) := by
  have hup : (c.outage.send.contains address || c.outage.drops b address payload) = false := by
    rw [h.outage]
    rfl
  rw [Connection.send, hup, h.usable]

/-- Nothing is taken only at the ends of the logs. -/
theorem length_le_of_takeReady_nil (h : takeReady b positions addresses = (.ok [], final)) :
    ∀ a ∈ addresses, ∀ p, positions.get? a = some p → (b.log a).length ≤ p := by
  induction addresses generalizing positions with
  | nil => intro a ha; cases ha
  | cons address rest ih =>
    obtain ⟨start, others, hstart, hnil, hrest⟩ := takeReady_cons h
    obtain ⟨hready, rfl⟩ := List.append_eq_nil_iff.mp hnil.symm
    rw [hready, List.isEmpty_nil, if_pos rfl] at hrest
    intro a ha p hp
    rcases List.mem_cons.mp ha with rfl | ha
    · obtain rfl : start = p := Option.some.inj (hstart.symm.trans hp)
      exact Broker.length_le_of_ready_eq_nil hready
    · exact ih hrest a ha p hp

/-- A fetch goes through, and comes back empty-handed only at the ends of the logs. -/
theorem Up.fetch (h : c.Up) (b : Broker) (now : Timestamp)
    (hall : ∀ a ∈ addresses, (c.positions.get? a).isSome) :
    ∃ records c' b', c.fetch b now addresses = (.ok records, c', b') ∧
      (records = [] → ∀ a ∈ addresses, ∀ p, c.positions.get? a = some p →
        (b.log a).length ≤ p) := by
  obtain ⟨records, final, hready⟩ := exists_takeReady (b := b) hall
  refine ⟨records, { c with positions := final }, noteFetched c.identity now b records, ?_, ?_⟩
  · simp only [Connection.fetch, h.outage, h.usable, hready]
  · rintro rfl
    exact length_le_of_takeReady_nil hready

end Connection

namespace Session

variable {σ : Type} {x y : Session σ} {now : Timestamp}

/-- The client runs on a connection that is up. -/
structure Up (x : Session σ) : Prop where
  running : x.client.stopped = false
  connection : x.client.connection.Up

theorem Up.synced (h : x.Up) : ({ x with client := x.client.synced x.broker } : Session σ).Up :=
  ⟨h.running, h.connection.opened, h.connection.outage⟩

/-- There is nothing left to read at any address. -/
def Drained (x : Session σ) : Prop :=
  ∀ a p, (x.client.routes.get? a).isSome → x.client.connection.positions.get? a = some p →
    (x.broker.log a).length ≤ p

/-- Every routed address is among those of all lanes. -/
theorem mem_addresses_of_route {c : Client σ} {a : String} (h : (c.routes.get? a).isSome) :
    a ∈ c.addresses fun _ => true := by
  obtain ⟨⟨index, lane⟩, hroute⟩ := Option.isSome_iff_exists.mp h
  exact Client.mem_addresses_iff.mpr ⟨index, lane, hroute, rfl⟩

theorem fetch_up (hup : x.Up) (ht : x.Tracked) (now : Timestamp) (p : Lane → Bool) :
    ∃ records y, x.fetch now (x.client.addresses p) = (.ok records, y) ∧
      (records = [] → ∀ a ∈ x.client.addresses p, ∀ q,
        x.client.connection.positions.get? a = some q → (x.broker.log a).length ≤ q) := by
  obtain ⟨records, c, b, hfetch, hnil⟩ :=
    hup.connection.fetch x.broker now fun a (ha : a ∈ x.client.addresses p) =>
      ht a (mem_addresses ha)
  exact ⟨records, { x.withConnection c with broker := b }, by rw [fetch, hfetch], hnil⟩

theorem takeAny_up (hup : x.Up) (ht : x.Tracked) (now : Timestamp) :
    ∃ records y, x.takeAny now = (.ok records, y) ∧ (records = [] → x.Drained) := by
  obtain ⟨records, y, hfetch, hnil⟩ := fetch_up hup ht now fun _ => true
  refine ⟨records.filter y.client.isPriority ++
    records.filter fun r => !y.client.isPriority r, y, by rw [takeAny, hfetch], ?_⟩
  intro hsorted
  -- sorting loses nothing, so nothing was fetched
  have hrecords : records = [] := by
    obtain ⟨hurgent, hother⟩ := List.append_eq_nil_iff.mp hsorted
    rw [List.filter_eq_nil_iff] at hurgent hother
    refine List.eq_nil_iff_forall_not_mem.mpr fun r hr => ?_
    have hr' := hother r hr
    rw [Bool.not_eq_true', Bool.not_eq_false] at hr'
    exact hurgent r hr hr'
  exact fun a p ha hp => hnil hrecords a (mem_addresses_of_route ha) p hp

/-- Taking nothing leaves as much to read as before. -/
theorem Took.drained (h : x.Took [] y) (hy : y.Drained) : x.Drained := by
  intro a p ha hp
  obtain ⟨n, hnil, hafter⟩ := h.advance.tracked a p hp
  obtain rfl : n = 0 := by simpa using hnil.symm
  rw [← Broker.log_of_logs h.logs a]
  exact hy a p (h.routes ▸ ha) hafter

theorem Took.up {rs : List Record} (h : x.Took rs y) (hup : x.Up) : y.Up := by
  obtain ⟨positions, hclient⟩ := h.client
  refine ⟨by rw [hclient]; exact hup.running, ?_, ?_⟩
  · rw [hclient]; exact hup.connection.opened
  · rw [hclient]; exact hup.connection.outage

theorem take_up (hup : x.Up) (ht : x.Tracked) (now : Timestamp) :
    ∃ records y, x.take now = (.ok records, y) ∧ (records = [] → x.Drained) := by
  obtain ⟨urgent, y, hfirst⟩ : ∃ urgent y, x.takeUrgent now = (.ok urgent, y) := by
    unfold takeUrgent
    split
    · exact ⟨[], x, rfl⟩
    · obtain ⟨urgent, y, hfetch, -⟩ := fetch_up hup ht now (· == .priority)
      exact ⟨urgent, y, hfetch⟩
  have htook : x.Took urgent y := takeUrgent_took ht hfirst
  cases urgent with
  | cons r rest => exact ⟨r :: rest, y, by rw [take_eq, hfirst], fun hnil => by cases hnil⟩
  | nil =>
    obtain ⟨records, z, hany, hnil⟩ := takeAny_up (htook.up hup) (htook.tracked ht) now
    exact ⟨records, z, by rw [take_eq, hfirst]; exact hany, fun h => htook.drained (hnil h)⟩

theorem listen_up (hup : x.Up) :
    x.listen = (.ok (), { x with client := x.client.synced x.broker }) := by
  rcases x.listen_cases with ⟨-, hok⟩ | ⟨e, herr⟩
  · exact hok
  · -- nothing but a call that is down could refuse to listen
    exfalso
    unfold listen sync Connection.subscribe at herr
    rw [hup.running, if_neg Bool.false_ne_true, hup.connection.outage,
      hup.connection.usable] at herr
    split at herr <;> cases herr

/-- **A client on a connection that is up gathers records** from the positions that it has
once its connection knows every address, and none only when nothing is left to read. -/
theorem gather_up (hw : x.client.Wired) (hup : x.Up) (now : Timestamp) (waited : Bool) :
    ∃ records y, x.gather now waited = (.ok records, y) ∧
      ({ x with client := x.client.synced x.broker } : Session σ).Took records y ∧
      (records = [] → ({ x with client := x.client.synced x.broker } : Session σ).Drained) := by
  have ht : ({ x with client := x.client.synced x.broker } : Session σ).Tracked := fun a ha =>
    Client.synced_tracked hw hup.running x.broker ha
  unfold gather
  rw [listen_up hup]
  dsimp only
  split
  · rename_i hempty
    refine ⟨[], _, rfl, .refl _, fun _ a p ha _ => ?_⟩
    have hnone : (x.client.synced x.broker).routes.entries = [] := by simpa using hempty
    rw [Table.get?, hnone] at ha
    cases ha
  · split
    · obtain ⟨records, y, hany, hnil⟩ := takeAny_up hup.synced ht now
      exact ⟨records, y, hany, takeAny_took ht hany, hnil⟩
    · obtain ⟨records, y, htake, hnil⟩ := take_up hup.synced ht now
      exact ⟨records, y, htake, take_took ht htake, hnil⟩

/-- A poll begins by making every address known, so it does not matter if that has been done. -/
theorem poll_synced (hup : x.Up) (now : Timestamp) :
    ({ x with client := x.client.synced x.broker } : Session σ).poll now = x.poll now := by
  have hgather : ({ x with client := x.client.synced x.broker } : Session σ).gather now false =
      x.gather now false := by
    unfold gather
    rw [listen_up hup, listen_up hup.synced]
    rfl
  rw [poll, poll, pass, pass, hgather]

/-- A commit makes every position durable for the group. -/
theorem commit_up (hw : x.client.Wired) (hup : x.Up) : x.commit.1 = .ok () ∧
    ∀ a p, x.client.connection.positions.get? a = some p →
      x.commit.2.broker.committedOffset x.client.connection.identity.group a = some p := by
  have hcommits : x.Commits := ⟨hup.running, by rw [hup.connection.outage]⟩
  refine ⟨?_, fun a p hp => ?_⟩
  · unfold commit Connection.commit
    rw [hup.running, if_neg Bool.false_ne_true, hup.connection.outage, hup.connection.usable]
  · rw [(commit_eq hw).2, if_pos ⟨hcommits, rfl⟩, hp]
    rfl

theorem heartbeat_up (hup : x.Up) (now : Timestamp) : (x.heartbeat now).1 = .ok () := by
  unfold heartbeat Connection.heartbeat
  rw [hup.running, if_neg Bool.false_ne_true, hup.connection.outage, hup.connection.usable]

theorem stop_up (hup : x.Up) : x.stop.1 = .ok () := by
  have hclose : x.client.connection.outage.close = false := by rw [hup.connection.outage]
  unfold stop Connection.close
  rw [hup.running, if_neg Bool.false_ne_true]
  dsimp only
  rw [hclose, if_neg Bool.false_ne_true]

end Session
end LaneBus
