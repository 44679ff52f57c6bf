import LaneBus.Client
import LaneBus.Proofs.Positions

/-! # The wiring of a client

Every address that a client reads has a route to one of its subscriptions, and
the connection either knows the address or is about to be told (`Client.Wired`).
A new client is wired (`Client.connect_wired`), and every registration keeps it
so (`Client.register_wired`), also one that replaces a handler.  Once the
connection has been told, it has a position for every address, so that a fetch
cannot meet an address that was never subscribed (`Client.synced_tracked`).
-/
namespace LaneBus
namespace Client

variable {σ : Type} {c : Client σ}

/-- **What holds of a client between its operations.**  Seeking is the one call
that cannot be down. -/
structure Wired (c : Client σ) : Prop where
  routed : ∀ a index lane, c.routes.get? a = some (index, lane) → index < c.subscriptions.length
  seekable : c.connection.outage.seek = false
  opened : c.stopped = false → c.connection.closed = false
  tracked : c.stopped = false → ∀ a, (c.routes.get? a).isSome →
    a ∈ c.unsynced ∨ (c.connection.positions.get? a).isSome

theorem Wired.receiver (h : c.Wired) {a : String} (ha : (c.routes.get? a).isSome) :
    (c.receiver? a).isSome := by
  obtain ⟨⟨index, lane⟩, hroute⟩ := Option.isSome_iff_exists.mp ha
  rw [receiver?, hroute]
  simp only [Option.isSome_map]
  rw [List.getElem?_eq_getElem (h.routed a index lane hroute)]
  rfl

theorem connect_wired {identity : Identity} {provenance : Provenance}
    (h : connect identity provenance = .ok c) : c.Wired := by
  obtain rfl : ({ identity, provenance, connection := { identity } } : Client σ) = c := by
    simpa [connect, Connection.connect] using h
  exact ⟨fun a index lane ha => (by cases ha), rfl, fun _ => rfl, fun _ a ha => (by cases ha)⟩

/-- What a client fetches from are its routed addresses, in whatever order. -/
theorem mem_addresses_iff {p : Lane → Bool} {a : String} :
    a ∈ c.addresses p ↔ ∃ index lane, c.routes.get? a = some (index, lane) ∧ p lane = true := by
  simp only [addresses, (c.itinerary.perm _).mem_iff, List.mem_map, List.mem_filter, Prod.exists,
    exists_and_right, exists_eq_right, Table.mem_entries_iff]

/-- What is handed to a subscription comes from a route. -/
theorem mem_subscriptions_of_receiver? {a : String} {s : Subscription σ} {lane : Lane}
    (h : c.receiver? a = some (s, lane)) : s ∈ c.subscriptions := by
  unfold receiver? at h
  split at h
  · cases h
  · obtain ⟨s', hs', heq⟩ := Option.map_eq_some_iff.mp h
    cases heq
    exact List.mem_of_getElem? hs'

/-! ## Registering -/

theorem route_wired {topic : String} {index : Nat} (lanes : List Lane) (h : c.Wired)
    (hindex : index < c.subscriptions.length) : (route topic index c lanes).Wired := by
  induction lanes generalizing c with
  | nil => exact h
  | cons lane rest ih =>
    refine ih ⟨fun a i l ha => ?_, h.seekable, h.opened, fun hs a ha => ?_⟩ hindex
    · rw [Table.get?_insert] at ha
      split at ha
      · obtain ⟨rfl, rfl⟩ : index = i ∧ lane = l := by simpa using ha
        exact hindex
      · exact h.routed a i l ha
    · simp only [Table.get?_insert] at ha
      by_cases hsame : lane.address topic = a
      · subst hsame
        cases hroute : (c.routes.get? (lane.address topic)).isSome with
        | true => simpa [hroute] using h.tracked hs _ hroute
        | false => exact .inl (by simp)
      · rw [if_neg hsame] at ha
        rcases h.tracked hs a ha with hun | hpos
        · refine .inl ?_
          dsimp only
          split
          · exact hun
          · exact List.mem_append_left _ hun
        · exact .inr hpos

theorem route_connection (topic : String) (index : Nat) (c : Client σ) (lanes : List Lane) :
    (route topic index c lanes).connection = c.connection := by
  induction lanes generalizing c with
  | nil => rfl
  | cons lane rest ih => exact ih _

/-- **Registering keeps a client wired**, whether the handler is new or takes the
place of another. -/
theorem register_wired (h : c.Wired) (topic : String) (kind : SubscriptionKind)
    (handler : Handler σ) : (c.register topic kind handler).Wired := by
  unfold register
  dsimp only
  split
  · rename_i index hfound
    obtain ⟨hlt, -⟩ := List.findIdx?_eq_some_iff_getElem.mp hfound
    refine route_wired _ ⟨fun a i l ha => ?_, h.seekable, h.opened, h.tracked⟩ ?_
    · rw [List.length_modify]; exact h.routed a i l ha
    · rw [List.length_modify]; exact hlt
  · refine route_wired _ ⟨fun a i l ha => ?_, h.seekable, h.opened, h.tracked⟩ ?_
    · rw [List.length_append]
      exact Nat.lt_add_right _ (h.routed a i l ha)
    · rw [List.length_append]
      exact Nat.lt_succ_self _

theorem register_connection (c : Client σ) (topic : String) (kind : SubscriptionKind)
    (handler : Handler σ) : (c.register topic kind handler).connection = c.connection := by
  unfold register
  dsimp only
  split <;> exact route_connection ..

/-! ## Whose records are whose -/

/-- The addresses that a consumer of a topic reads lead to its handler. -/
def Consumes (c : Client σ) (topic : String) (handler : Handler σ) : Prop :=
  ∀ lane : Lane, lane.isError = false →
    c.receiver? (lane.address topic) = some ({ topic, kind := .consumer, handler }, lane)

/-- The address of the error lane of a topic leads to a monitor. -/
def Monitors (c : Client σ) (topic : String) (callback : MonitorCallback σ) : Prop :=
  c.receiver? (Lane.error.address topic) =
    some ({ topic, kind := .monitor, handler := .monitor callback }, .error)

theorem subscriptions_route (topic : String) (index : Nat) (c : Client σ) (lanes : List Lane) :
    (route topic index c lanes).subscriptions = c.subscriptions := by
  induction lanes generalizing c with
  | nil => rfl
  | cons lane rest ih => exact ih _

theorem find?_address (topic : String) (lanes : List Lane) (lane : Lane) :
    (lanes.find? fun l => l.address topic = lane.address topic) =
      if lane ∈ lanes then some lane else none := by
  simp only [Lane.address_inj, and_true]
  induction lanes with
  | nil => rfl
  | cons l rest ih =>
    by_cases h : l = lane
    · simp [h]
    · simp [h, ih, Ne.symm h]

theorem get?_route (topic : String) (index : Nat) (c : Client σ) (lanes : List Lane) (a : String) :
    (route topic index c lanes).routes.get? a =
      match lanes.find? fun lane => lane.address topic = a with
      | some lane => some (index, lane)
      | none => c.routes.get? a := by
  induction lanes generalizing c with
  | nil => rfl
  | cons lane rest ih =>
    rw [route, ih]
    by_cases ha : lane.address topic = a
    · subst ha
      rw [find?_address]
      by_cases hrest : lane ∈ rest <;> simp [hrest]
    · simp [ha, Table.get?_insert]

theorem receiver?_route_of_mem {topic : String} {index : Nat} {lanes : List Lane} {lane : Lane}
    (h : lane ∈ lanes) {s : Subscription σ} (hs : c.subscriptions[index]? = some s) :
    (route topic index c lanes).receiver? (lane.address topic) = some (s, lane) := by
  rw [receiver?, subscriptions_route, get?_route, find?_address, if_pos h]
  simp [hs]

/-- A new subscription reads the addresses of its lanes, whatever has read them before. -/
theorem receiver?_register (c : Client σ) (topic : String) {kind : SubscriptionKind}
    (handler : Handler σ) {lane : Lane} (h : lane ∈ kind.lanes) :
    (c.register topic kind handler).receiver? (lane.address topic) =
      some ({ topic, kind, handler }, lane) := by
  unfold register
  dsimp only
  split
  · rename_i index hfound
    obtain ⟨hlt, hsame, -⟩ := List.findIdx?_eq_some_iff_getElem.mp hfound
    obtain ⟨ht, hk⟩ : c.subscriptions[index].topic = topic ∧
        c.subscriptions[index].kind = kind := by simpa using hsame
    refine receiver?_route_of_mem h ?_
    simp [hlt, ← ht, ← hk]
  · exact receiver?_route_of_mem h (by simp)

theorem register_consumes (c : Client σ) (topic : String) (handler : Handler σ) :
    (c.register topic .consumer handler).Consumes topic handler := by
  intro lane hlane
  apply c.receiver?_register
  cases lane with
  | normal => decide
  | priority => decide
  | error => cases hlane

/-! ## Telling the connection -/

/-- The client once its connection knows all that it routes. -/
def synced (c : Client σ) (b : Broker) : Client σ :=
  { c with
    connection := { c.connection with
      positions := Connection.track b c.connection.identity.group c.connection.positions c.unsynced }
    unsynced := [] }

theorem synced_of_nil (h : c.unsynced = []) (b : Broker) : c.synced b = c := by
  rw [synced, h, Connection.track, ← h]

/-- An address that is new to the connection starts at what its group has
committed. -/
theorem get?_synced (c : Client σ) (b : Broker) (a : String) :
    (c.synced b).connection.positions.get? a =
      (c.connection.positions.get? a).or
        (if a ∈ c.unsynced then some ((b.committedOffset c.connection.identity.group a).getD 0)
          else none) :=
  Connection.get?_track ..

theorem synced_wired (h : c.Wired) (b : Broker) : (c.synced b).Wired where
  routed := h.routed
  seekable := h.seekable
  opened := h.opened
  tracked hs a ha := by
    right
    rw [get?_synced]
    rcases h.tracked hs a ha with hun | hpos
    · rw [if_pos hun]
      cases c.connection.positions.get? a <;> rfl
    · obtain ⟨p, hp⟩ := Option.isSome_iff_exists.mp hpos
      rw [hp]; rfl

theorem synced_tracked (h : c.Wired) (hs : c.stopped = false) (b : Broker) {a : String}
    (ha : (c.routes.get? a).isSome) : ((c.synced b).connection.positions.get? a).isSome := by
  rcases (synced_wired h b).tracked hs a ha with hun | hpos
  · cases hun
  · exact hpos

end Client
end LaneBus
