import LaneBus.Proofs.Relaying

/-! # What a relay leaves behind

A relay that nobody feeds reads on until nothing is left, and then stops by itself
(`Relay.Working.drive`): every pass turns at least one more of the records that were unread
at the beginning, or finds that there are no more.

So in the end all of them have been turned, each once and those of an address in order,
and what the relay has committed is all that it has read (`Relay.run_conserves`).
-/
namespace LaneBus

open Json

/-- The records of the normal and priority lanes of a topic that a group has not handled
yet. -/
def Broker.unreadOf (b : Broker) (group topic : String) : List Record :=
  Lane.consumed.flatMap fun lane => b.unread group (lane.address topic)

theorem Lane.mem_consumed {lane : Lane} : lane ∈ Lane.consumed ↔ lane.isError = false := by
  cases lane <;> decide

theorem Advance.get?_eq {s t : Table String Nat} (h : Advance s [] t) (a : String) :
    t.get? a = s.get? a := by
  cases hs : s.get? a with
  | none => exact (h.untracked a hs).2
  | some p =>
    obtain ⟨n, hnil, ht⟩ := h.tracked a p hs
    obtain rfl : n = 0 := by simpa using hnil.symm
    exact ht

namespace Relay

section

variable {σ : Type} {x y : Session σ} {input output : String}
  {ledger : List (Record × Outgoing)}

/-! ## What has been read -/

/-- Records of a topic are those of its priority lane and those of its normal lane. -/
theorem perm_lanes (rs : List Record)
    (h : ∀ r ∈ rs, ∃ lane : Lane, lane.isError = false ∧ r.address = lane.address input) :
    rs.Perm (Lane.consumed.flatMap fun lane => rs.filter (·.address = lane.address input)) := by
  have hnormal : rs.filter (fun r => !decide (r.address = Lane.priority.address input)) =
      rs.filter (·.address = Lane.normal.address input) := by
    refine List.filter_congr fun r hr => ?_
    obtain ⟨lane, hlane, haddress⟩ := h r hr
    rw [haddress]
    cases lane with
    | error => cases hlane
    | normal => simp [Lane.address_inj]
    | priority => simp [Lane.address_inj]
  have hsplit := (List.filter_append_perm
    (fun r : Record => decide (r.address = Lane.priority.address input)) rs).symm
  rw [hnormal] at hsplit
  simpa [Lane.consumed] using hsplit

theorem Reading.routed_lane (h : Reading input output x) {lane : Lane}
    (hlane : lane.isError = false) : (x.client.routes.get? (lane.address input)).isSome := by
  have hreceiver := h.consumes lane hlane
  unfold Client.receiver? at hreceiver
  split at hreceiver
  · cases hreceiver
  · rename_i hroute
    rw [hroute]
    rfl

namespace Turned

/-- What has been read at an address are the first records from the position on. -/
theorem read (h : Turned input output x ledger y) {a : String} {p : Nat}
    (hp : x.client.connection.positions.get? a = some p) : ∃ n,
      (ledger.map Prod.fst).filter (·.address = a) = (x.broker.recordsFrom a p).take n ∧
      y.client.connection.positions.get? a = some (p + n) ∧ n ≤ (x.broker.log a).length - p := by
  obtain ⟨n, hoffsets, hafter⟩ := h.advance.tracked a p hp
  have hread : (ledger.map Prod.fst).filter (·.address = a) =
      (x.broker.recordsFrom a p).take n := by
    refine Broker.eq_take_recordsFrom (fun r hr => ?_) hoffsets
    obtain ⟨hr, ha⟩ := List.mem_filter.mp hr
    obtain ⟨e, he, rfl⟩ := List.mem_map.mp hr
    exact ⟨of_decide_eq_true ha, h.holds e he⟩
  refine ⟨n, hread, hafter, ?_⟩
  have hlength := congrArg List.length hoffsets
  rw [offsetsAt, hread, List.length_map, List.length_take, Broker.length_recordsFrom,
    List.length_range'] at hlength
  omega

/-- When nothing is left to read, all records from the position on have been read. -/
theorem read_all (h : Turned input output x ledger y) (hy : Reading input output y)
    (hne : input ≠ output) (hdrained : y.Drained) {lane : Lane} (hlane : lane.isError = false)
    {p : Nat} (hp : x.client.connection.positions.get? (lane.address input) = some p) :
    (ledger.map Prod.fst).filter (·.address = lane.address input) =
        x.broker.recordsFrom (lane.address input) p ∧
      (p ≤ (x.broker.log (lane.address input)).length →
        y.client.connection.positions.get? (lane.address input) =
          some (x.broker.log (lane.address input)).length) := by
  obtain ⟨n, hread, hafter, hn⟩ := h.read hp
  have hend := hdrained _ _ (hy.routed_lane hlane) hafter
  rw [h.log_input hne hlane] at hend
  refine ⟨?_, fun hle => ?_⟩
  · rw [hread, List.take_of_length_le]
    rw [Broker.length_recordsFrom]
    omega
  · rw [hafter]
    congr 1
    omega

/-- The records read are those of the two lanes of the input. -/
theorem perm_read (h : Turned input output x ledger y) :
    (ledger.map Prod.fst).Perm (Lane.consumed.flatMap fun lane =>
      (ledger.map Prod.fst).filter (·.address = lane.address input)) := by
  refine perm_lanes (ledger.map Prod.fst) fun r hr => ?_
  obtain ⟨e, he, rfl⟩ := List.mem_map.mp hr
  exact (h.relayed e he).address

/-- Nothing is read where nothing is left to read. -/
theorem eq_nil_of_drained (h : Turned input output x ledger y) (hx : Reading input output x)
    (ht : x.Tracked) (hdrained : x.Drained) : ledger = [] := by
  cases ledger with
  | nil => rfl
  | cons e rest =>
    exfalso
    obtain ⟨lane, hlane, haddress⟩ := (h.relayed e List.mem_cons_self).address
    have hroute := hx.routed_lane hlane
    obtain ⟨p, hp⟩ := Option.isSome_iff_exists.mp (ht _ hroute)
    obtain ⟨n, hread, -, hn⟩ := h.read hp
    have hend := hdrained _ p hroute hp
    obtain rfl : n = 0 := by omega
    rw [List.take_zero, List.filter_eq_nil_iff] at hread
    exact hread e.1 (by simp) (decide_eq_true haddress)

theorem drained (h : Turned input output x [] y) (hx : x.Drained) : y.Drained := by
  intro a p ha hp
  obtain ⟨positions, hclient⟩ := h.client
  rw [hclient] at ha
  rw [h.advance.get?_eq a] at hp
  have hlog : y.broker.log a = x.broker.log a := by
    rw [h.gains]
    exact List.append_nil _
  rw [hlog]
  exact hx a p ha hp

end Turned

/-! ## Working to the end -/

/-- A relay at its beginning: its connection knows the addresses of the input, and reads them
from what the group has committed on. -/
structure Fresh (input output : String) (x : Session σ) : Prop extends
    Reading input output x where
  tracked : x.Tracked
  synced : x.client.unsynced = []
  positions : ∀ lane : Lane, lane.isError = false →
    x.client.connection.positions.get? (lane.address input) =
      some ((x.broker.committedOffset x.client.connection.identity.group
        (lane.address input)).getD 0)

/-- The records that are unread at the beginning. -/
def toRead (x : Session σ) (input : String) : List Record :=
  x.broker.unreadOf x.client.connection.identity.group input

/-- No more is read than was unread at the beginning. -/
theorem Fresh.length_le (hx : Fresh input output x) (h : Turned input output x ledger y) :
    ledger.length ≤ (toRead x input).length := by
  have hlane (lane : Lane) (hlane : lane.isError = false) :
      ((ledger.map Prod.fst).filter (·.address = lane.address input)).length ≤
        (x.broker.unread x.client.connection.identity.group (lane.address input)).length := by
    obtain ⟨n, hread, -, -⟩ := h.read (hx.positions lane hlane)
    rw [hread, List.length_take]
    exact Nat.min_le_right ..
  have hpriority := hlane .priority rfl
  have hnormal := hlane .normal rfl
  rw [← List.length_map Prod.fst, h.perm_read.length_eq]
  simp only [toRead, Broker.unreadOf, Lane.consumed, List.flatMap_cons, List.flatMap_nil,
    List.length_append, List.length_nil]
  omega

/-- When nothing is left to read, all that was unread at the beginning has been read. -/
theorem Fresh.read_all (hx : Fresh input output x) (h : Turned input output x ledger y)
    (hne : input ≠ output) (hdrained : y.Drained) :
    (ledger.map Prod.fst).Perm (toRead x input) := by
  have hsame : (Lane.consumed.flatMap fun lane =>
      (ledger.map Prod.fst).filter (·.address = lane.address input)) = toRead x input := by
    unfold toRead Broker.unreadOf
    refine List.flatMap_congr fun lane hlane => ?_
    have hlane := Lane.mem_consumed.mp hlane
    exact (h.read_all (h.reading hx.toReading hx.tracked).1 hne hdrained hlane
      (hx.positions lane hlane)).1
  exact hsame ▸ h.perm_read

end

section

variable {x : Session Nat} {w : Worker Nat} {input output : String}
  {ledger : List (Record × Outgoing)}

/-- A worker between two passes, and what it has turned so far. -/
structure Working (input output : String) (x : Session Nat) (w : Worker Nat)
    (ledger : List (Record × Outgoing)) : Prop where
  turned : Turned input output x ledger w.session
  dispatched : w.dispatched = ledger.length
  committed : ledger ≠ [] → ∀ a p, w.session.client.connection.positions.get? a = some p →
    w.session.broker.committedOffset x.client.connection.identity.group a = some p
  drained : 0 < w.idle → w.session.Drained

section

variable {now : Timestamp} {y : Session Nat} {more : List (Record × Outgoing)}

/-- A pass that has found nothing counts as idle. -/
theorem Working.idle_pass (hne : input ≠ output) (h : Working input output x w ledger)
    (hready : y.Up) (hpoll : w.session.poll now = (.ok 0, y))
    (hturned : Turned input output w.session [] y)
    (hcommitted : y.broker.committed = w.session.broker.committed)
    (hdrained : w.session.Drained) :
    ∃ w' : Worker Nat, w.pass now = (if w'.isIdle then w'.stop else .going w') ∧
      w'.options = w.options ∧ w'.idle = w.idle + 1 ∧ Working input output x w' ledger := by
  have hbeat := Session.heartbeat_up hready now
  obtain ⟨hlogs, hsame⟩ := Session.heartbeat_logs_committed y now
  have hstays := Session.heartbeat_client y now
  cases hz : y.heartbeat now with
  | mk outcome z =>
    rw [hz] at hbeat hlogs hsame hstays
    obtain rfl : outcome = .ok () := hbeat
    have hafter := hturned.of_same hstays hlogs
    refine ⟨{ w with session := z, idle := w.idle + 1 }, ?_, rfl, rfl, ⟨?_, h.dispatched, ?_, ?_⟩⟩
    · rw [Worker.pass, hpoll]
      simp only [hz]
    · have hall := h.turned.trans hafter hne
      rwa [List.append_nil] at hall
    · intro hsome a p hp
      change z.client.connection.positions.get? a = some p at hp
      rw [hafter.advance.get?_eq a] at hp
      change z.broker.committedOffset _ a = some p
      rw [Broker.committedOffset, hsame, hcommitted]
      exact h.committed hsome a p hp
    · exact fun _ => hafter.drained hdrained

/-- A pass that has found records commits what it has read. -/
theorem Working.busy_pass (hx : Fresh input output x) (hne : input ≠ output)
    (h : Working input output x w ledger) (hready : Reading input output y)
    (hpoll : w.session.poll now = (.ok more.length, y))
    (hturned : Turned input output w.session more y) (hmore : more ≠ []) :
    ∃ w', w.idle = 0 ∧ w.pass now = .going w' ∧ w'.options = w.options ∧ w'.idle = 0 ∧
      Working input output x w' (ledger ++ more) := by
  obtain ⟨hreading, htracked⟩ := h.turned.reading hx.toReading hx.tracked
  obtain ⟨n, hn⟩ := Nat.exists_eq_succ_of_ne_zero (mt List.eq_nil_of_length_eq_zero hmore)
  have hidle : w.idle = 0 := by
    rcases Nat.eq_zero_or_pos w.idle with hzero | hpos
    · exact hzero
    · exact absurd (hturned.eq_nil_of_drained hreading htracked (h.drained hpos)) hmore
  have hgroup : y.client.connection.identity.group = x.client.connection.identity.group := by
    obtain ⟨positions, hclient⟩ := (h.turned.trans hturned hne).client
    rw [hclient]
  obtain ⟨hok, hdurable⟩ := Session.commit_up hready.wired hready.up
  have hlogs := (Session.commit_eq hready.wired).1
  have hstays := Session.commit_client y
  cases hz : y.commit with
  | mk outcome z =>
    rw [hz] at hok hdurable hlogs hstays
    obtain rfl : outcome = .ok () := hok
    refine ⟨{ w with session := z, dispatched := w.dispatched + more.length, idle := 0 }, hidle,
      ?_, rfl, rfl, ⟨?_, ?_, ?_, ?_⟩⟩
    · rw [Worker.pass, hpoll, hn]
      simp only [hz]
    · exact h.turned.trans (hturned.of_same hstays hlogs) hne
    · rw [List.length_append, ← h.dispatched]
    · intro _ a p hp
      change z.client.connection.positions.get? a = some p at hp
      rw [hstays] at hp
      exact hgroup ▸ hdurable a p hp
    · intro hpos
      cases hpos

end

/-- **A pass** turns some more records, unless it finds that nothing is left to read. -/
theorem Working.pass (hx : Fresh input output x) (hne : input ≠ output)
    (h : Working input output x w ledger) (now : Timestamp) :
    (∃ more w', more ≠ [] ∧ w.idle = 0 ∧ w.pass now = .going w' ∧ w'.options = w.options ∧
      w'.idle = 0 ∧ Working input output x w' (ledger ++ more)) ∨
    (∃ w' : Worker Nat, w.pass now = (if w'.isIdle then w'.stop else .going w') ∧
      w'.options = w.options ∧ w'.idle = w.idle + 1 ∧ Working input output x w' ledger) := by
  obtain ⟨hreading, htracked⟩ := h.turned.reading hx.toReading hx.tracked
  have hsynced : w.session.client.unsynced = [] := by
    obtain ⟨positions, hclient⟩ := h.turned.client
    rw [hclient]
    exact hx.synced
  obtain ⟨more, y, hpoll, hturned, hcommitted, hnil⟩ := poll_relays hreading now
  rw [Client.synced_of_nil hsynced] at hturned hnil
  obtain ⟨hready, -⟩ := hturned.reading hreading htracked
  by_cases hmore : more = []
  · subst hmore
    exact .inr (h.idle_pass hne hready.up hpoll hturned hcommitted (hnil rfl))
  · obtain ⟨w', hpassed⟩ := h.busy_pass hx hne hready hpoll hturned hmore
    exact .inl ⟨more, w', hmore, hpassed⟩

/-- A worker that stops leaves its broker as it is. -/
theorem Working.stop (hx : Fresh input output x) (h : Working input output x w ledger) :
    ∃ z, w.stop = .finished ledger.length z ∧ z.broker = w.session.broker := by
  obtain ⟨hreading, -⟩ := h.turned.reading hx.toReading hx.tracked
  have hok := Session.stop_up hreading.up
  have hbroker := Session.stop_broker w.session
  cases hz : w.session.stop with
  | mk outcome z =>
    rw [hz] at hok hbroker
    obtain rfl : outcome = .ok () := hok
    exact ⟨z, by rw [Worker.stop, hz, h.dispatched], hbroker⟩

/-- **A relay that nobody feeds comes to its end**: after as many passes as there are records
to read and idle passes to wait, at the latest. -/
theorem Working.drive (hx : Fresh input output x) (hne : input ≠ output) {passes : List Pass}
    (halone : ∀ p ∈ passes, p.arrivals = []) (h : Working input output x w ledger)
    (hidle : w.idle < w.options.maxIdlePolls)
    (hlong : (toRead x input).length + w.options.maxIdlePolls ≤
      ledger.length + w.idle + passes.length) :
    ∃ ledger' w' z, w.drive passes = .finished ledger'.length z ∧ z.broker = w'.session.broker ∧
      w'.session.Drained ∧ Working input output x w' ledger' := by
  induction passes generalizing w ledger with
  | nil =>
    have hbound := hx.length_le h.turned
    rw [List.length_nil] at hlong
    omega
  | cons p rest ih =>
    obtain ⟨hp, hrest⟩ := List.forall_mem_cons.mp halone
    have hreceive : w.receive p.arrivals = w := by
      rw [hp]
      rfl
    rw [List.length_cons] at hlong
    rw [Worker.drive, hreceive]
    rcases h.pass hx hne p.now with
      ⟨more, w', hmore, hzero, hpass, hoptions, hidle', hworking⟩ |
      ⟨w', hpass, hoptions, hidle', hworking⟩
    · -- the pass was not idle, so there are fewer records to read
      rw [hpass]
      have hpos := List.length_pos_of_ne_nil hmore
      refine ih hrest hworking (by rw [hoptions, hidle']; omega) ?_
      rw [hoptions, hidle', List.length_append]
      omega
    · rw [hpass]
      cases hdone : w'.isIdle with
      | true =>
        obtain ⟨z, hstop, hbroker⟩ := hworking.stop hx
        rw [if_pos rfl, hstop]
        exact ⟨ledger, w', z, rfl, hbroker, hworking.drained (by omega), hworking⟩
      | false =>
        have hmore : w'.idle < w'.options.maxIdlePolls := by
          have hpos : 0 < w'.options.maxIdlePolls := by rw [hoptions]; omega
          rw [Worker.isIdle, decide_eq_true hpos, Bool.true_and, decide_eq_false_iff_not] at hdone
          exact Nat.not_le.mp hdone
        rw [if_neg Bool.false_ne_true]
        exact ih hrest hworking hmore (by rw [hoptions, hidle']; omega)

end

/-! ## What has become of the records -/

section

variable {p : Provenance} {input output : String} {ledger : List (Record × Outgoing)}

/-- What has been forwarded on a lane is what could be forwarded of it, in order. -/
theorem forall₂_forwards (h : ∀ e ∈ ledger, Relayed p input output e.1 e.2) {lane : Lane}
    (hlane : lane.isError = false) :
    List.Forall₂ (Forwards p)
      (((ledger.map Prod.fst).filter (·.address = lane.address input)).filterMap
        fun r => forwarded? r.payload)
      (((ledger.map Prod.snd).filter (·.address == lane.address output)).map Outgoing.payload) := by
  induction ledger with
  | nil => exact .nil
  | cons e rest ih =>
    obtain ⟨r, o⟩ := e
    obtain ⟨hhead, hrest⟩ := List.forall_mem_cons.mp h
    have hmore := ih hrest
    cases hhead with
    | forwarded lane' hlane' haddress e v text hforwarded htext =>
      by_cases hsame : lane' = lane
      · subst hsame
        have hr : decide (r.address = lane'.address input) = true := decide_eq_true haddress
        simp only [List.map_cons, List.filter_cons, hr, if_true, List.filterMap_cons, hforwarded,
          beq_self_eq_true]
        exact .cons htext hmore
      · have hr : ¬r.address = lane.address input := fun heq =>
          hsame (Lane.address_inj.mp (haddress.symm.trans heq)).1
        have ho : (lane'.address output == lane.address output) = false :=
          beq_false_of_ne fun heq => hsame (Lane.address_inj.mp heq).1
        simp only [List.map_cons, List.filter_cons, hr, ho, decide_false, Bool.false_eq_true,
          if_false]
        exact hmore
    | reported lane' hlane' haddress text hforwarded htext =>
      have ho : (Lane.error.address input == lane.address output) = false :=
        beq_false_of_ne fun heq => by
          rw [← (Lane.address_inj.mp heq).1] at hlane
          cases hlane
      simp only [List.map_cons, List.filter_cons, ho, Bool.false_eq_true, if_false]
      split
      · simp only [List.filterMap_cons, hforwarded]
        exact hmore
      · exact hmore

/-- What has been reported is what could not be forwarded, in the order in which it was
read. -/
theorem forall₂_reports (h : ∀ e ∈ ledger, Relayed p input output e.1 e.2) :
    List.Forall₂ (fun r text => ∃ lane ∈ Lane.consumed, r.address = lane.address input ∧
        Reports p lane r.payload text)
      ((ledger.map Prod.fst).filter fun r => (forwarded? r.payload).isNone)
      (((ledger.map Prod.snd).filter (·.address == Lane.error.address input)).map
        Outgoing.payload) := by
  induction ledger with
  | nil => exact .nil
  | cons e rest ih =>
    obtain ⟨r, o⟩ := e
    obtain ⟨hhead, hrest⟩ := List.forall_mem_cons.mp h
    have hmore := ih hrest
    cases hhead with
    | forwarded lane hlane haddress e v text hforwarded htext =>
      have ho : (lane.address output == Lane.error.address input) = false :=
        beq_false_of_ne fun heq => by
          rw [(Lane.address_inj.mp heq).1] at hlane
          cases hlane
      simp only [List.map_cons, List.filter_cons, hforwarded, ho, Option.isNone_some,
        Bool.false_eq_true, if_false]
      exact hmore
    | reported lane hlane haddress text hforwarded htext =>
      simp only [List.map_cons, List.filter_cons, hforwarded, beq_self_eq_true, Option.isNone_none,
        if_true]
      exact .cons ⟨lane, Lane.mem_consumed.mpr hlane, haddress, htext⟩ hmore

/-- What a relay has made of what a group had left to read on a topic. -/
structure Conserves (p : Provenance) (group input output : String) (b b' : Broker) : Prop where
  /-- On each lane, what could be forwarded of it has been, in order. -/
  forwarded : ∀ lane ∈ Lane.consumed, ∃ texts,
    b'.log (lane.address output) = b.log (lane.address output) ++ texts ∧
    List.Forall₂ (Forwards p)
      ((b.unread group (lane.address input)).filterMap fun r => forwarded? r.payload) texts
  /-- All the rest has been reported, each record once. -/
  reported : ∃ others texts,
    b'.log (Lane.error.address input) = b.log (Lane.error.address input) ++ texts ∧
    others.Perm ((b.unreadOf group input).filter fun r => (forwarded? r.payload).isNone) ∧
    List.Forall₂ (fun r text => ∃ lane ∈ Lane.consumed, r.address = lane.address input ∧
      Reports p lane r.payload text) others texts
  untouched : ∀ a, a ≠ Lane.error.address input →
    (∀ lane ∈ Lane.consumed, a ≠ lane.address output) → b'.log a = b.log a
  committed : b.unreadOf group input ≠ [] → ∀ lane ∈ Lane.consumed,
    b'.committedOffset group (lane.address input) = some (b'.log (lane.address input)).length

/-- When nothing is left to read, everything that was unread has been turned. -/
theorem Working.conserves {x : Session Nat} {w : Worker Nat} (hx : Fresh input output x)
    (hne : input ≠ output) (hcommitted : ∀ lane ∈ Lane.consumed,
      (x.broker.committedOffset x.client.connection.identity.group (lane.address input)).getD 0 ≤
        (x.broker.log (lane.address input)).length)
    (h : Working input output x w ledger) (hdrained : w.session.Drained) :
    Conserves x.client.provenance x.client.connection.identity.group input output x.broker
      w.session.broker := by
  have hread := hx.read_all h.turned hne hdrained
  have hlane (lane : Lane) (hmem : lane ∈ Lane.consumed) :=
    h.turned.read_all (h.turned.reading hx.toReading hx.tracked).1 hne hdrained
      (Lane.mem_consumed.mp hmem) (hx.positions lane (Lane.mem_consumed.mp hmem))
  refine ⟨fun lane hmem => ⟨_, h.turned.gains _, ?_⟩, ⟨_, _, h.turned.gains _, ?_,
    forall₂_reports h.turned.relayed⟩, fun a herror hother => ?_, fun hsome lane hmem => ?_⟩
  · have hforwards := forall₂_forwards h.turned.relayed (Lane.mem_consumed.mp hmem)
    rw [(hlane lane hmem).1] at hforwards
    exact hforwards
  · exact hread.filter _
  · have hnone : (ledger.map Prod.snd).filter (·.address == a) = [] := by
      rw [List.filter_eq_nil_iff]
      intro o ho
      obtain ⟨⟨r, o⟩, he, rfl⟩ := List.mem_map.mp ho
      have hrelayed : Relayed _ input output r o := h.turned.relayed (r, o) he
      rw [beq_iff_eq]
      cases hrelayed with
      | forwarded lane hlane haddress e v text hforwarded htext =>
        exact (hother lane (Lane.mem_consumed.mpr hlane)).symm
      | reported lane hlane haddress text hforwarded htext => exact herror.symm
    rw [h.turned.gains, hnone, List.map_nil, List.append_nil]
  · have hledger : ledger ≠ [] := by
      rintro rfl
      exact hsome hread.nil_eq.symm
    rw [h.turned.log_input hne (Lane.mem_consumed.mp hmem)]
    exact h.committed hledger _ _ ((hlane lane hmem).2 (hcommitted lane hmem))

end

/-! ## From the beginning -/

section

variable {input output : String}

/-- A relay that has just subscribed can go on. -/
theorem reading_start {client : Client Nat} (hsubscriptions : client.subscriptions = [])
    (hroutes : client.routes = .empty) (hw : client.Wired) (hrunning : client.stopped = false)
    (hup : client.connection.Up) (b : Broker) (state : Nat) :
    Reading input output ({
      client := client.register input .consumer (.consumer (callback output) defaultReport)
      broker := b
      state } : Session Nat) := by
  have hroute : client.register input .consumer (.consumer (callback output) defaultReport) =
      Client.route input 0 { client with
        subscriptions := [{
          topic := input, kind := .consumer
          handler := .consumer (callback output) defaultReport }] } Lane.consumed := by
    rw [Client.register, hsubscriptions]
    rfl
  refine ⟨client.register_wired hw _ _ _, ⟨?_, ?_⟩, client.register_consumes _ _, fun a ha => ?_⟩
  · rw [hroute]
    exact hrunning
  · rw [Client.register_connection]
    exact hup
  · rw [hroute, Client.get?_route, hroutes] at ha
    split at ha
    · rename_i lane hfind
      have haddress : lane.address input = a := by simpa using List.find?_some hfind
      exact ⟨lane, Lane.mem_consumed.mp (List.mem_of_find?_eq_some hfind), haddress.symm⟩
    · cases ha

/-- It begins where its group has committed. -/
theorem Reading.fresh {x : Session Nat} (h : Reading input output x)
    (hpositions : x.client.connection.positions = .empty) :
    Fresh input output { x with client := x.client.synced x.broker } where
  wired := Client.synced_wired h.wired x.broker
  up := h.up.synced
  consumes := h.consumes
  routed := h.routed
  tracked a ha := Client.synced_tracked h.wired h.up.running x.broker ha
  synced := rfl
  positions lane hlane := by
    have hroute := h.routed_lane hlane
    have hunsynced : lane.address input ∈ x.client.unsynced := by
      rcases h.wired.tracked h.up.running _ hroute with hmem | hpos
      · exact hmem
      · rw [hpositions] at hpos
        cases hpos
    change (x.client.synced x.broker).connection.positions.get? _ = _
    rw [Client.get?_synced, hpositions, if_pos hunsynced]
    rfl

/-- The first pass makes the addresses known, so it does not matter if that has been done. -/
theorem drive_synced {w : Worker Nat} (hup : w.session.Up) {passes : List Pass}
    (halone : ∀ p ∈ passes, p.arrivals = []) (hsome : passes ≠ []) :
    ({ w with session := { w.session with
      client := w.session.client.synced w.session.broker } } : Worker Nat).drive passes =
      w.drive passes := by
  cases passes with
  | nil => exact absurd rfl hsome
  | cons p rest =>
    have hreceive (w : Worker Nat) : w.receive p.arrivals = w := by
      rw [halone p List.mem_cons_self]
      rfl
    have hpass : ({ w with session := { w.session with
        client := w.session.client.synced w.session.broker } } : Worker Nat).pass p.now =
        w.pass p.now := by
      rw [Worker.pass, Worker.pass]
      dsimp only
      rw [Session.poll_synced hup]
    rw [Worker.drive, Worker.drive, hreceive, hreceive, hpass]

/-- A relay that has just subscribed, and that nobody feeds, turns everything that is unread. -/
theorem Reading.drive {w : Worker Nat} (h : Reading input output w.session)
    (hpositions : w.session.client.connection.positions = .empty) (hne : input ≠ output)
    (hcommitted : ∀ lane ∈ Lane.consumed,
      (w.session.broker.committedOffset w.session.client.connection.identity.group
          (lane.address input)).getD 0 ≤ (w.session.broker.log (lane.address input)).length)
    (hdispatched : w.dispatched = 0) (hidle : w.idle = 0) (hpasses : 1 ≤ w.options.maxIdlePolls)
    {passes : List Pass} (halone : ∀ p ∈ passes, p.arrivals = [])
    (hlong : (toRead w.session input).length + w.options.maxIdlePolls ≤ passes.length) :
    ∃ x, w.drive passes = .finished (toRead w.session input).length x ∧
      Conserves w.session.client.provenance w.session.client.connection.identity.group
        input output w.session.broker x.broker := by
  have hfresh := h.fresh hpositions
  -- the addresses may as well be known before the first pass
  let w₀ : Worker Nat := { w with session := { w.session with
    client := w.session.client.synced w.session.broker } }
  have hworking : Working input output w₀.session w₀ [] :=
    ⟨.refl w₀.session, hdispatched, fun hnil => absurd rfl hnil,
      fun hpos => absurd hidle (Nat.ne_of_gt hpos)⟩
  have hsome : passes ≠ [] := by
    rintro rfl
    rw [List.length_nil] at hlong
    omega
  obtain ⟨ledger, w', x, hdrive, hbroker, hdrained, hworking'⟩ := hworking.drive hfresh hne halone
    (by change w.idle < w.options.maxIdlePolls; omega)
    (by
      change (toRead w.session input).length + w.options.maxIdlePolls ≤ 0 + w.idle + passes.length
      omega)
  have hlength : ledger.length = (toRead w.session input).length := by
    rw [← List.length_map Prod.fst]
    exact (hfresh.read_all hworking'.turned hne hdrained).length_eq
  refine ⟨x, ?_, ?_⟩
  · rw [← hlength, ← hdrive]
    exact (drive_synced h.up halone hsome).symm
  · have hconserves := hworking'.conserves hfresh hne hcommitted hdrained
    rw [← hbroker] at hconserves
    exact hconserves

/-- **A relay conserves its input.**  Of every two different topics, whatever the logs of the
input hold and wherever the group has committed in them: when nobody else appends, the relay
comes to its end by itself within as many passes as there are records unread and idle passes
to wait, and then has forwarded or reported each record that was unread, and committed. -/
theorem run_conserves (identity : Identity) (provenance : Provenance) (pollTimeout : Nat)
    (itinerary : Itinerary) (hne : input ≠ output) (b : Broker)
    (hcommitted : ∀ lane ∈ Lane.consumed,
      (b.committedOffset identity.group (lane.address input)).getD 0 ≤
        (b.log (lane.address input)).length)
    {maxIdlePolls : Nat} (hidle : 1 ≤ maxIdlePolls) {passes : List Pass}
    (halone : ∀ p ∈ passes, p.arrivals = [])
    (hlong : (b.unreadOf identity.group input).length + maxIdlePolls ≤ passes.length) :
    let client : Client Nat :=
      { identity, provenance, connection := { identity }, pollTimeout, itinerary }
    ∃ w x, Plugin.start client (fun c => c.subscribe input (callback output)) { maxIdlePolls } b =
        .ok w ∧
      w.drive passes = .finished (b.unreadOf identity.group input).length x ∧
      (plugin client { input, output } { maxIdlePolls }).run passes b =
        { result := .ok (), broker := x.broker, events := x.events } ∧
      Conserves provenance identity.group input output b x.broker := by
  intro client
  have hw : client.Wired :=
    ⟨fun a index lane ha => (by cases ha), rfl, fun _ => rfl, fun _ a ha => (by cases ha)⟩
  let w : Worker Nat :=
    { session := {
        client := client.register input .consumer (.consumer (callback output) defaultReport)
        broker := b
        state := 0 }
      options := { maxIdlePolls } }
  have hstart : Plugin.start client (fun c => c.subscribe input (callback output))
      { maxIdlePolls } b = .ok w := rfl
  have hreading : Reading input output w.session := reading_start rfl rfl hw rfl ⟨rfl, rfl⟩ b 0
  have hconnection : w.session.client.connection = { identity } := Client.register_connection ..
  have hprovenance : w.session.client.provenance = provenance := Client.register_provenance ..
  have hgroup : w.session.client.connection.identity.group = identity.group := by
    rw [hconnection]
  have htoRead : toRead w.session input = b.unreadOf identity.group input :=
    congrArg (b.unreadOf · input) hgroup
  obtain ⟨x, hdrive, hconserves⟩ := hreading.drive (by rw [hconnection]) hne
    (by rw [hgroup]; exact hcommitted) rfl rfl hidle halone (by rw [htoRead]; exact hlong)
  rw [htoRead] at hdrive
  rw [hgroup, hprovenance] at hconserves
  refine ⟨w, x, hstart, hdrive, ?_, hconserves⟩
  simp only [Plugin.run, plugin, hstart, hdrive, Turn.settle]

end

/-- A record that can be forwarded and one that cannot be read, on different lanes. -/
theorem run_conserves_mixed :
    let identity : Identity := { url := "memory://b", group := "g", client := "c" }
    let provenance : Provenance := { plugin := "p", version := "1", host := "h" }
    let b := (({} : Broker).append "in-NORMAL"
      "\x7b\"created_at\":\"2024-01-01T00:00:00Z\",\"payload\":1\x7d").append "in-PRIORITY" "?"
    let passes : List Pass := List.replicate 3 { now := ⟨2024, 1, 1, 0, 0, 0, 0⟩ }
    "in" ≠ "out" ∧
      (∀ lane ∈ Lane.consumed, (b.committedOffset "g" (lane.address "in")).getD 0 ≤
        (b.log (lane.address "in")).length) ∧
      (∀ p ∈ passes, p.arrivals = []) ∧ (b.unreadOf "g" "in").length = 2 ∧
      ∃ x : Session Nat, ((plugin { identity, provenance, connection := { identity } }
          { input := "in", output := "out" } { maxIdlePolls := 1 }).run passes b) =
          { result := .ok (), broker := x.broker, events := x.events } ∧
        Conserves provenance "g" "in" "out" b x.broker := by
  intro identity provenance b passes
  have hcommitted : ∀ lane ∈ Lane.consumed, (b.committedOffset "g" (lane.address "in")).getD 0 ≤
      (b.log (lane.address "in")).length := by decide +kernel
  have halone : ∀ p ∈ passes, p.arrivals = [] := fun p hp => by
    rw [List.eq_of_mem_replicate hp]
  have hunread : (b.unreadOf "g" "in").length = 2 := by decide +kernel
  have hlong : (b.unreadOf "g" "in").length + 1 ≤ passes.length := by
    rw [hunread, List.length_replicate]
  have hne : "in" ≠ "out" := by decide
  obtain ⟨-, x, -, -, hrun, hconserves⟩ :=
    run_conserves identity provenance 1000 .sorted hne b hcommitted (Nat.le_refl 1) halone hlong
  exact ⟨hne, hcommitted, halone, hunread, x, hrun, hconserves⟩

end Relay
end LaneBus
