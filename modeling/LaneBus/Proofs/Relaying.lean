import LaneBus.Proofs.Hops
import LaneBus.Proofs.Supply
import LaneBus.Proofs.Writing
import Mathlib.Data.List.Forall2

/-! # Relaying

A relay turns every record that it reads into one record: a forwarded envelope on the
same lane of its output topic, or a report on the error lane of its input topic
(`Relay.Relayed`).  Neither ever lands on an address that the relay reads, whatever the
two topics are, so what there is to read does not grow, and a relay that nobody feeds
comes to its end.
-/
namespace LaneBus

open Json

namespace Relay

/-! ## One record -/

/-- The envelope of a text that can be forwarded, with its payload: it carries no failure,
and its payload is present and not null. -/
def forwarded? (raw : String) : Option (Envelope Value Value × Value) :=
  match decode (Envelope Value Value) raw with
  | .error _ => none
  | .ok e =>
    if e.err.isSome then none
    else
      match e.payload with
      | none => none
      | some .null => none
      | some payload => some (e, payload)

/-- Why a text cannot be forwarded, and what could be read of it. -/
inductive Refused (now : Timestamp) (lane : Lane) (raw : String) :
    Option (Envelope Value Value) → Failure → Prop where
  | unreadable (reason : ReadError) (hread : decode (Envelope Value Value) raw = .error reason) :
    Refused now lane raw none reason.failure
  | misplaced (e : Envelope Value Value) (hread : decode (Envelope Value Value) raw = .ok e)
      (herr : e.err.isSome = true) :
    Refused now lane raw (some (e.consume now)) (laneViolation lane)
  | unpaid (e : Envelope Value Value) (hread : decode (Envelope Value Value) raw = .ok e)
      (herr : e.err = none) (hpayload : e.payload = none ∨ e.payload = some .null) :
    Refused now lane raw (some (e.consume now)) nullPayload

/-- A text is forwarded by a producer: as an envelope with its payload, derived from the
consumed envelope. -/
def Forwards (p : Provenance) (forwarded : Envelope Value Value × Value) (text : String) : Prop :=
  ∃ now : Timestamp, encode ({
    createdAt := now
    pluginName := some p.plugin
    pluginVersion := some p.version
    host := some p.host
    input := some (forwarded.1.consume now)
    payload := some forwarded.2 } : Envelope (Envelope Value Value) Value) = .ok text

/-- A text on a lane is reported by a producer, with the reason why it is not forwarded. -/
def Reports (p : Provenance) (lane : Lane) (raw text : String) : Prop :=
  ∃ now e f, Refused now lane raw e f ∧ IsReport p now raw e f text

section

variable {raw : String} {lane : Lane} {e : Envelope Value Value} {v : Value}

theorem forwarded?_eq_some (h : forwarded? raw = some (e, v)) :
    decode (Envelope Value Value) raw = .ok e ∧ e.err = none ∧ e.payload = some v ∧ v ≠ .null := by
  unfold forwarded? at h
  split at h
  · cases h
  · rename_i e' hread
    split at h
    · cases h
    · rename_i herr
      split at h
      · cases h
      · cases h
      · rename_i v' hnull hpayload
        cases h
        exact ⟨hread, by simpa using herr, hpayload, hnull⟩

theorem exists_refused (h : forwarded? raw = none) (now : Timestamp) (lane : Lane) :
    ∃ e f, Refused now lane raw e f := by
  unfold forwarded? at h
  split at h
  · rename_i reason hread
    exact ⟨_, _, .unreadable reason hread⟩
  · rename_i e hread
    split at h
    · rename_i herr
      exact ⟨_, _, .misplaced e hread herr⟩
    · rename_i herr
      have hnone : e.err = none := by simpa using herr
      split at h
      · rename_i hpayload
        exact ⟨_, _, .unpaid e hread hnone (.inl hpayload)⟩
      · rename_i hpayload
        exact ⟨_, _, .unpaid e hread hnone (.inr hpayload)⟩
      · cases h

variable {σ : Type} {output : String} {empty : Outbox} {state : σ}

/-- What carries no failure fits every lane but the error lane. -/
theorem fits_of_err_eq_none (hlane : lane.isError = false) (herr : e.err = none)
    (now : Timestamp) : (e.consume now).fits lane = true := by
  rw [Envelope.fits, hlane, if_neg Bool.false_ne_true]
  change e.err.isNone = true
  rw [herr]
  rfl

/-- The callback accepts what can be forwarded, and queues it. -/
theorem accepts_of_forwarded? (h : forwarded? raw = some (e, v)) (hlane : lane.isError = false) :
    Accepts (callback output) raw lane empty state { empty with
      pending := empty.pending ++ [{
        address := lane.address output
        payload :=
          ((e.consume empty.now).answer empty.provenance empty.now v).toValue.text }] } := by
  obtain ⟨hread, herr, hpayload, hnull⟩ := forwarded?_eq_some h
  refine .intro e _ state hread (fits_of_err_eq_none hlane herr _) ?_
  have hforward : forward (e.consume empty.now) lane empty output = .ok { empty with
      pending := empty.pending ++ [{
        address := lane.address output
        payload :=
          ((e.consume empty.now).answer empty.provenance empty.now v).toValue.text }] } := by
    unfold forward
    rw [show (e.consume empty.now).payload = some v from hpayload]
    split
    · rename_i hnone
      cases hnone
    · rename_i hnone
      cases hnone
      exact absurd rfl hnull
    · rename_i payload _ hsome
      cases hsome
      rw [Outbox.publishDerived_eq _ _ _ _ hlane]
  rw [callback, hforward]

/-- The callback rejects what cannot be forwarded, with the reason. -/
theorem Refused.rejects {now : Timestamp} {e : Option (Envelope Value Value)} {f : Failure}
    (h : Refused now lane raw e f) (empty : Outbox) (hnow : empty.now = now)
    (hlane : lane.isError = false) : Rejects (callback output) raw lane empty state e f state := by
  subst hnow
  cases h with
  | unreadable reason hread => exact .unreadable reason hread
  | misplaced e hread herr =>
    refine .misplaced e hread ?_
    rw [Envelope.fits, hlane, if_neg Bool.false_ne_true, ← Option.not_isSome]
    change (!e.err.isSome) = false
    rw [herr]
    rfl
  | unpaid e hread herr hpayload =>
    refine .failed e nullPayload empty state hread (fits_of_err_eq_none hlane herr _) ?_
    have hforward : forward (e.consume empty.now) lane empty output = .error nullPayload := by
      unfold forward
      rcases hpayload with hpayload | hpayload
      · rw [show (e.consume empty.now).payload = none from hpayload]
      · rw [show (e.consume empty.now).payload = some .null from hpayload]
    rw [callback, hforward]

end

/-- A record of a relay's input has been turned into another one: it is forwarded on its lane
of the output, or reported on the error lane of the input. -/
inductive Relayed (p : Provenance) (input output : String) (r : Record) : Outgoing → Prop where
  | forwarded (lane : Lane) (hlane : lane.isError = false)
      (haddress : r.address = lane.address input) (e : Envelope Value Value) (v : Value)
      (text : String) (h : forwarded? r.payload = some (e, v)) (htext : Forwards p (e, v) text) :
    Relayed p input output r { address := lane.address output, payload := text }
  | reported (lane : Lane) (hlane : lane.isError = false)
      (haddress : r.address = lane.address input) (text : String)
      (h : forwarded? r.payload = none) (htext : Reports p lane r.payload text) :
    Relayed p input output r { address := Lane.error.address input, payload := text }

/-! ## Dispatches -/

section

variable {σ : Type} {x : Session σ} {input output : String}

/-- **A relay turns every record that it is handed into one record.** -/
theorem dispatch_relays (hsends : x.client.connection.Delivers)
    (hconsumes : x.client.Consumes input (.consumer (callback output) defaultReport)) {r : Record}
    {lane : Lane} (hlane : lane.isError = false) (hr : r.address = lane.address input)
    (now : Timestamp) :
    ∃ o, Relayed x.client.provenance input output r o ∧ x.Appends now r [o] := by
  obtain ⟨haccepted, hrejected⟩ := Session.dispatch_consumer hsends hconsumes hlane hr now
  cases hforwarded : forwarded? r.payload with
  | some forwarded =>
    obtain ⟨e, v⟩ := forwarded
    refine ⟨_, .forwarded lane hlane hr e v _ hforwarded ⟨now, ?_⟩,
      haccepted _ (accepts_of_forwarded? hforwarded hlane)⟩
    have htext := Envelope.toJson_derived (e.consume now) x.client.provenance now v
    rw [encode]
    exact congrArg (Value.text <$> ·) htext
  | none =>
    obtain ⟨e, f, hrefused⟩ := exists_refused hforwarded now lane
    obtain ⟨made, hmade⟩ := Session.exists_reportText x.client.provenance now r.payload e f
    exact ⟨_, .reported lane hlane hr made hforwarded
        ⟨now, e, f, hrefused, isReport_of_reportText hmade⟩,
      hrejected e f x.state made (hrefused.rejects (x.emptyOutbox now) rfl hlane) hmade⟩

/-- What a relay needs to go on: it consumes its input and nothing else, on a connection that
is up. -/
structure Reading (input output : String) (x : Session σ) : Prop where
  wired : x.client.Wired
  up : x.Up
  consumes : x.client.Consumes input (.consumer (callback output) defaultReport)
  routed : ∀ a, (x.client.routes.get? a).isSome →
    ∃ lane : Lane, lane.isError = false ∧ a = lane.address input

/-- A session has turned some records into others, each of which it has found in its logs,
and nothing else has been appended. -/
structure Turned (input output : String) (x : Session σ) (ledger : List (Record × Outgoing))
    (y : Session σ) : Prop where
  client : ∃ positions, y.client =
    { x.client with connection := { x.client.connection with positions } }
  advance : Advance x.client.connection.positions (ledger.map Prod.fst)
    y.client.connection.positions
  relayed : ∀ e ∈ ledger, Relayed x.client.provenance input output e.1 e.2
  holds : ∀ e ∈ ledger, x.broker.Holds e.1
  gains : x.broker.Gains (ledger.map Prod.snd) y.broker

theorem Relayed.address {p : Provenance} {r : Record} {o : Outgoing}
    (h : Relayed p input output r o) :
    ∃ lane : Lane, lane.isError = false ∧ r.address = lane.address input := by
  cases h with
  | forwarded lane hlane haddress e v text h htext => exact ⟨lane, hlane, haddress⟩
  | reported lane hlane haddress text h htext => exact ⟨lane, hlane, haddress⟩

/-- **What a relay writes never lands on an address that it reads.** -/
theorem Relayed.address_ne {p : Provenance} {r : Record} {o : Outgoing}
    (h : Relayed p input output r o) (hne : input ≠ output) {lane : Lane}
    (hlane : lane.isError = false) : o.address ≠ lane.address input := by
  intro haddress
  cases h with
  | forwarded lane' hlane' haddress' e v text h htext =>
    exact hne (Lane.address_inj.mp haddress).2.symm
  | reported lane' hlane' haddress' text h htext =>
    rw [← (Lane.address_inj.mp haddress).1] at hlane
    cases hlane

theorem dispatchAll_relays (hsends : x.client.connection.Delivers)
    (hconsumes : x.client.Consumes input (.consumer (callback output) defaultReport))
    {records : List Record}
    (hrecords : ∀ r ∈ records, ∃ lane : Lane, lane.isError = false ∧ r.address = lane.address input)
    (now : Timestamp) :
    ∃ (ledger : List (Record × Outgoing)) (y : Session σ), ledger.map Prod.fst = records ∧
      (∀ e ∈ ledger, Relayed x.client.provenance input output e.1 e.2) ∧
      x.dispatchAll now records = (.ok (), y) ∧ x.Steady y ∧
      x.broker.Gains (ledger.map Prod.snd) y.broker := by
  induction records generalizing x with
  | nil => exact ⟨[], x, rfl, fun e he => (by cases he), rfl, .refl x, .refl x.broker⟩
  | cons r rest ih =>
    obtain ⟨⟨lane, hlane, hr⟩, hrest⟩ := List.forall_mem_cons.mp hrecords
    obtain ⟨o, hrelayed, hok, hbroker⟩ := dispatch_relays hsends hconsumes hlane hr now
    have hsteady := x.dispatch_steady now r
    cases hdispatch : x.dispatch now r with
    | mk outcome y =>
      rw [hdispatch] at hok hbroker hsteady
      obtain rfl : outcome = .ok () := hok
      obtain ⟨ledger, z, hfst, hall, hz, hyz, hgains⟩ := ih (x := y) (hsteady.client ▸ hsends)
        (hsteady.client ▸ hconsumes) hrest
      refine ⟨(r, o) :: ledger, z, by rw [List.map_cons, hfst], ?_, ?_, hsteady.trans hyz, ?_⟩
      · rw [hsteady.client] at hall
        exact List.forall_mem_cons.mpr ⟨hrelayed, hall⟩
      · simp only [Session.dispatchAll, hdispatch, hz]
      · have hfirst : x.broker.Gains [o] y.broker := by
          rw [show y.broker = x.broker.appendAll [o] from hbroker]
          exact x.broker.gains_appendAll [o]
        exact hfirst.trans hgains

/-! ## Turning records -/

namespace Turned

variable {y z : Session σ} {ledger more : List (Record × Outgoing)}

theorem refl (x : Session σ) : Turned input output x [] x :=
  ⟨⟨_, rfl⟩, .refl _, fun e he => (by cases he), fun e he => (by cases he), .refl _⟩

/-- What there is to read does not grow. -/
theorem log_input (h : Turned input output x ledger y) (hne : input ≠ output) {lane : Lane}
    (hlane : lane.isError = false) :
    y.broker.log (lane.address input) = x.broker.log (lane.address input) := by
  have hnone : (ledger.map Prod.snd).filter (·.address == lane.address input) = [] := by
    rw [List.filter_eq_nil_iff]
    intro o ho
    obtain ⟨e, he, rfl⟩ := List.mem_map.mp ho
    simpa using (h.relayed e he).address_ne hne hlane
  rw [h.gains, hnone, List.map_nil, List.append_nil]

theorem trans (h : Turned input output x ledger y) (h' : Turned input output y more z)
    (hne : input ≠ output) : Turned input output x (ledger ++ more) z where
  client := by
    obtain ⟨s, hs⟩ := h.client
    obtain ⟨t, ht⟩ := h'.client
    exact ⟨t, by rw [ht, hs]⟩
  advance := by
    rw [List.map_append]
    exact h.advance.trans h'.advance
  relayed e he := by
    obtain ⟨s, hs⟩ := h.client
    rcases List.mem_append.mp he with he | he
    · exact h.relayed e he
    · have hrelayed := h'.relayed e he
      rw [hs] at hrelayed
      exact hrelayed
  holds e he := by
    rcases List.mem_append.mp he with he | he
    · exact h.holds e he
    · obtain ⟨lane, hlane, haddress⟩ := (h'.relayed e he).address
      have hholds := h'.holds e he
      rw [Broker.Holds, haddress, h.log_input hne hlane, ← haddress] at hholds
      exact hholds
  gains := by
    rw [List.map_append]
    exact h.gains.trans h'.gains

/-- Where the logs stay as they are, it does not matter what else happens to the broker. -/
theorem of_same {y' : Session σ} (h : Turned input output x ledger y)
    (hclient : y'.client = y.client) (hlogs : y'.broker.logs = y.broker.logs) :
    Turned input output x ledger y' where
  client := by
    rw [hclient]
    exact h.client
  advance := by
    rw [hclient]
    exact h.advance
  relayed := h.relayed
  holds := h.holds
  gains := by
    have hgains := h.gains.trans (.of_logs hlogs)
    rwa [List.append_nil] at hgains

theorem reading (h : Turned input output x ledger y) (hx : Reading input output x)
    (ht : x.Tracked) : Reading input output y ∧ y.Tracked := by
  obtain ⟨positions, hclient⟩ := h.client
  have hty : y.Tracked := fun a ha => by
    rw [hclient] at ha
    exact h.advance.isSome (ht a ha)
  refine ⟨⟨⟨?_, ?_, ?_, fun _ a ha => .inr (hty a ha)⟩, ⟨?_, ?_, ?_⟩, ?_, ?_⟩, hty⟩
  · rw [hclient]; exact hx.wired.routed
  · rw [hclient]; exact hx.wired.seekable
  · rw [hclient]; exact hx.wired.opened
  · rw [hclient]; exact hx.up.running
  · rw [hclient]; exact hx.up.connection.opened
  · rw [hclient]; exact hx.up.connection.outage
  · rw [hclient]; exact hx.consumes
  · rw [hclient]; exact hx.routed

end Turned

/-- **A poll of a relay turns what it gathers**, and gathers nothing only when nothing is left
to read. -/
theorem poll_relays (h : Reading input output x) (now : Timestamp) :
    ∃ (ledger : List (Record × Outgoing)) (y : Session σ),
      x.poll now = (.ok ledger.length, y) ∧
      Turned input output { x with client := x.client.synced x.broker } ledger y ∧
      y.broker.committed = x.broker.committed ∧
      (ledger = [] → ({ x with client := x.client.synced x.broker } : Session σ).Drained) := by
  obtain ⟨records, y, hgather, htook, hnil⟩ := Session.gather_up h.wired h.up now false
  obtain ⟨positions, hclient⟩ := htook.client
  have hup := htook.up h.up.synced
  have hsends : y.client.connection.Delivers := hup.connection.send
  have hconsumes : y.client.Consumes input (.consumer (callback output) defaultReport) := by
    rw [hclient]
    exact h.consumes
  have hrecords : ∀ r ∈ records, ∃ lane : Lane, lane.isError = false ∧
      r.address = lane.address input := fun r hr => h.routed _ (htook.known r hr).1
  obtain ⟨ledger, z, hfst, hrelayed, hdispatch, hsteady, hgains⟩ :=
    dispatchAll_relays hsends hconsumes hrecords now
  have hprovenance : y.client.provenance = x.client.provenance := by
    rw [hclient]
    rfl
  refine ⟨ledger, z, ?_, ⟨⟨positions, by rw [hsteady.client, hclient]⟩, ?_, ?_, ?_, ?_⟩, ?_, ?_⟩
  · rw [Session.poll, Session.pass, hgather]
    dsimp only
    rw [hdispatch, ← hfst, List.length_map]
  · rw [hsteady.client, hfst]
    exact htook.advance
  · rw [hprovenance] at hrelayed
    exact hrelayed
  · intro e he
    have hknown := (htook.known e.1 (hfst ▸ List.mem_map_of_mem he)).2
    rw [Broker.Holds, Broker.log_of_logs htook.logs] at hknown
    exact hknown
  · have hall := (Broker.Gains.of_logs htook.logs).trans hgains
    exact hall
  · rw [hsteady.grows.committed, htook.committed]
  · rintro rfl
    exact hnil hfst.symm

end

end Relay
end LaneBus
