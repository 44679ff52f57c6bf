import LaneBus.Proofs.Keeping

/-! # What a client depends on

Two sessions of one client are alike when their logs are, and what its group has
committed, and what it can see of what callbacks keep (`Session.Alike`).  The broker may
differ in all that other groups have committed, in signs of life and in notes of fetches.

**A client depends on nothing else** (`Operation.perform_alike`): from sessions that are
alike, every operation gives the same answer, makes the same attempts, and ends in
sessions that are alike again, provided that its handlers see no more than that of what
callbacks keep (`Handler.Sees`), and that whether a single record can be sent depends on
nothing but the logs (`Outage.Local`).
-/
namespace LaneBus

open Json

variable {σ τ : Type}

/-! ## Handlers that see a part of what is kept -/

/-- Two reactions differ in nothing but what cannot be seen of what is kept. -/
structure Reaction.Alike (view : σ → τ) (a a' : Reaction σ) : Prop where
  delivery : a'.delivery = a.delivery
  pending : a'.outbox.pending = a.outbox.pending
  state : view a'.state = view a.state
  events : a'.events = a.events

/-- A handler that sees nothing but a view of what is kept. -/
def Handler.Sees (view : σ → τ) (handler : Handler σ) : Prop :=
  ∀ r lane o s s', view s' = view s → (handler r lane o s).Alike view (handler r lane o s')

/-- A callback that sees nothing but a view of what is kept. -/
def Callback.Sees {I P : Type} (view : σ → τ) (callback : Callback σ I P) : Prop :=
  ∀ e lane o s s', view s' = view s →
    (callback e lane o s').1 = (callback e lane o s).1 ∧
      (callback e lane o s').2.1 = (callback e lane o s).2.1 ∧
      view (callback e lane o s').2.2 = view (callback e lane o s).2.2

/-- A report that sees nothing but a view of what is kept. -/
def Reporter.Sees {I P : Type} (view : σ → τ) (report : Reporter σ I P) : Prop :=
  ∀ e f raw s s', view s' = view s →
    (report e f raw s').1 = (report e f raw s).1 ∧
      view (report e f raw s').2 = view (report e f raw s).2

/-- An error handler that sees nothing but a view of what is kept. -/
def ErrorHandler.Sees {I P : Type} (view : σ → τ) (onError : ErrorHandler σ I P) : Prop :=
  ∀ e f s s', view s' = view s →
    (onError.handle e f s').1 = (onError.handle e f s).1 ∧
      view (onError.handle e f s').2 = view (onError.handle e f s).2

/-- A monitor that sees nothing but a view of what is kept. -/
def MonitorCallback.Sees (view : σ → τ) (callback : MonitorCallback σ) : Prop :=
  ∀ e s s', view s' = view s →
    (callback e s').1 = (callback e s).1 ∧ (callback e s').2.1 = (callback e s).2.1 ∧
      view (callback e s').2.2 = view (callback e s).2.2

section

variable {view : σ → τ}

theorem defaultReport_sees {I P : Type} [Encode I] [Encode P] (p : Provenance)
    (now : Timestamp) : (defaultReport (I := I) (P := P) p now).Sees view :=
  fun _ _ _ _ _ hview => ⟨rfl, hview⟩

theorem ErrorHandler.Sees.report {I P : Type} {onError : ErrorHandler σ I P}
    (h : onError.Sees view) (p : Provenance) (now : Timestamp) :
    (onError.report p now).Sees view := by
  intro e f raw s s' hview
  obtain ⟨hreport, hstate⟩ := h e f s s' hview
  exact ⟨congrArg encode hreport, hstate⟩

/-- What comes of a failure is alike when its report sees no more. -/
theorem Reporter.Sees.rejected {I P : Type} {report : Reporter σ I P} (h : report.Sees view)
    (e : Option (Envelope I P)) (f : Failure) (raw : String) (o : Outbox) {s s' : σ}
    (hview : view s' = view s) :
    (Reaction.rejected report e f raw o s).Alike view (.rejected report e f raw o s') := by
  obtain ⟨htext, hstate⟩ := h e f raw s s' hview
  unfold Reaction.rejected
  dsimp only
  rw [htext]
  exact ⟨rfl, rfl, hstate, rfl⟩

theorem Callback.Sees.consumer {I P : Type} [Decode I] [Decode P] {callback : Callback σ I P}
    (h : callback.Sees view) {report : Provenance → Timestamp → Reporter σ I P}
    (hreport : ∀ p now, (report p now).Sees view) :
    (Handler.consumer callback report).Sees view := by
  intro r lane o s s' hview
  have hrejected := (hreport o.provenance o.now).rejected
  rcases Handler.consumer_cases callback report r lane o with ⟨e, f, hsame⟩ | ⟨e, hcalled⟩
  · rw [hsame, hsame]
    exact hrejected e f r.payload o hview
  · obtain ⟨houtcome, houtbox, hstate⟩ := h e lane o s s' hview
    rw [hcalled, hcalled, houtcome, houtbox]
    split
    · exact ⟨rfl, rfl, hstate, rfl⟩
    · exact hrejected _ _ _ _ hstate

theorem MonitorCallback.Sees.monitor {callback : MonitorCallback σ} (h : callback.Sees view) :
    (Handler.monitor callback).Sees view := by
  intro r lane o s s' hview
  rcases Handler.monitor_cases callback r lane o with
    ⟨delivery, hsame⟩ | ⟨e, ends, hcalled⟩
  · rw [hsame, hsame]
    exact ⟨rfl, rfl, hview, rfl⟩
  · obtain ⟨houtcome, hevents, hstate⟩ := h e s s' hview
    rw [hcalled, hcalled, houtcome, hevents]
    exact ⟨rfl, rfl, hstate, rfl⟩

end

/-! ## Brokers with the same logs -/

/-- Whether a single record can be sent depends on nothing but the logs. -/
def Outage.Local (o : Outage) : Prop :=
  ∀ b b' : Broker, (∀ a, b'.log a = b.log a) → o.drops b' = o.drops b

namespace Connection

variable {c : Connection} {b b' : Broker}

/-- Sending to a broker with the same logs. -/
theorem send_congr (hlocal : c.outage.Local) (h : ∀ a, b'.log a = b.log a)
    (address payload : String) :
    c.send b' address payload =
      (c.send b address payload).map fun _ => b'.append address payload := by
  unfold send
  rw [hlocal b b' h]
  cases c.usable (c.outage.send.contains address || c.outage.drops b address payload) address <;>
    rfl

theorem send_eq_append {b₁ : Broker} {address payload : String}
    (h : c.send b address payload = .ok b₁) : b₁ = b.append address payload := by
  unfold send at h
  split at h
  · cases h
  · cases h
    rfl

theorem log_append_congr (h : ∀ a, b'.log a = b.log a) (address payload a : String) :
    (b'.append address payload).log a = (b.append address payload).log a := by
  rw [Broker.log_append, Broker.log_append, h, h]

theorem sendsAll_congr (hlocal : c.outage.Local) (h : ∀ a, b'.log a = b.log a)
    (rs : List Outgoing) : c.sendsAll b' rs = c.sendsAll b rs := by
  induction rs generalizing b b' with
  | nil => rfl
  | cons r rest ih =>
    unfold sendsAll
    rw [send_congr hlocal h]
    cases hsend : c.send b r.address r.payload with
    | error e => rfl
    | ok b₁ =>
      rw [send_eq_append hsend]
      exact ih (log_append_congr h r.address r.payload)

/-- New addresses start at what their own group has committed. -/
theorem track_congr {group : String}
    (h : ∀ a, b'.committedOffset group a = b.committedOffset group a)
    (positions : Table String Nat) (addresses : List String) :
    track b' group positions addresses = track b group positions addresses := by
  induction addresses generalizing positions with
  | nil => rfl
  | cons address rest ih =>
    unfold track
    rw [h address]
    split
    · exact ih _
    · exact ih _

theorem takeReady_congr (h : ∀ a, b'.log a = b.log a) (positions : Table String Nat)
    (addresses : List String) :
    takeReady b' positions addresses = takeReady b positions addresses := by
  induction addresses generalizing positions with
  | nil => rfl
  | cons address rest ih =>
    have hready (start : Nat) : b'.ready address start = b.ready address start := by
      rw [Broker.ready, Broker.ready, h]
    simp only [takeReady, hready, ih]

end Connection

/-! ## Sessions that are alike -/

namespace Session

/-- **Two sessions are alike for their client.** -/
structure Alike (view : σ → τ) (x x' : Session σ) : Prop where
  client : x'.client = x.client
  log : ∀ a, x'.broker.log a = x.broker.log a
  committed : ∀ a, x'.broker.committedOffset x.client.connection.identity.group a =
    x.broker.committedOffset x.client.connection.identity.group a
  state : view x'.state = view x.state
  events : x'.events = x.events

/-- Two results are the same, and the sessions they leave are alike. -/
def Agree {α : Type} (view : σ → τ) (r r' : α × Session σ) : Prop :=
  r'.1 = r.1 ∧ r.2.Alike view r'.2

/-- All handlers of a session see nothing but a view of what is kept, and sending depends
on nothing but the logs. -/
structure Sees (view : σ → τ) (x : Session σ) : Prop where
  handlers : ∀ s ∈ x.client.subscriptions, s.handler.Sees view
  sends : x.client.connection.outage.Local

variable {view : σ → τ} {x x' : Session σ} {now : Timestamp}

theorem Sees.of_wiring {y : Session σ} (hs : x.Sees view)
    (hwiring : x.client.SameWiring y.client) : y.Sees view :=
  ⟨fun s hmem => hs.handlers s (hwiring.subscriptions ▸ hmem), hwiring.outage ▸ hs.sends⟩

namespace Alike

/-- Something is logged. -/
theorem logged (h : x.Alike view x') (events : List Event) :
    (x.logged events).Alike view (x'.logged events) :=
  ⟨h.client, h.log, h.committed, h.state, by rw [Session.logged, Session.logged, h.events]⟩

/-- The client changes, but for its group. -/
theorem withClient (h : x.Alike view x') {c : Client σ}
    (hidentity : c.connection.identity = x.client.connection.identity) :
    ({ x with client := c } : Session σ).Alike view { x' with client := c } :=
  ⟨rfl, h.log, by rw [hidentity]; exact h.committed, h.state, h.events⟩

theorem withConnection (h : x.Alike view x') {c : Connection}
    (hidentity : c.identity = x.client.connection.identity) :
    (x.withConnection c).Alike view (x'.withConnection c) := by
  have hclient := h.withClient (c := { x.client with connection := c }) hidentity
  rw [Session.withConnection, Session.withConnection, h.client]
  exact hclient

/-- The brokers change, but not what counts. -/
theorem withBroker (h : x.Alike view x') {b b' : Broker} (hlog : ∀ a, b'.log a = b.log a)
    (hcommitted : ∀ a, b'.committedOffset x.client.connection.identity.group a =
      b.committedOffset x.client.connection.identity.group a) :
    ({ x with broker := b } : Session σ).Alike view { x' with broker := b' } :=
  ⟨h.client, hlog, hcommitted, h.state, h.events⟩

/-- What is kept changes alike. -/
theorem withState (h : x.Alike view x') {state state' : σ} (hstate : view state' = view state) :
    ({ x with state } : Session σ).Alike view { x' with state := state' } :=
  ⟨h.client, h.log, h.committed, hstate, h.events⟩

/-! ## Sending -/

theorem send (h : x.Alike view x') (hs : x.Sees view) (r : Outgoing) :
    Agree view (x.send r) (x'.send r) := by
  obtain ⟨client, broker, state, events⟩ := x'
  obtain rfl : client = x.client := h.client
  unfold Session.send
  rw [Connection.send_congr hs.sends h.log]
  cases hsend : x.client.connection.send x.broker r.address r.payload with
  | error e => exact ⟨rfl, h⟩
  | ok b =>
    rw [Connection.send_eq_append hsend]
    exact ⟨rfl, h.withBroker (Connection.log_append_congr h.log r.address r.payload) h.committed⟩

theorem sendAll (h : x.Alike view x') (hs : x.Sees view) (rs : List Outgoing) :
    Agree view (x.sendAll rs) (x'.sendAll rs) := by
  induction rs generalizing x x' with
  | nil => exact ⟨rfl, h⟩
  | cons r rest ih =>
    obtain ⟨hsame, hy⟩ := h.send hs r
    have hclient := (x.send_steady r).client
    unfold Session.sendAll
    rcases hx : x.send r with ⟨outcome, y⟩
    rcases hx' : x'.send r with ⟨outcome', y'⟩
    rw [hx, hx'] at hsame hy
    rw [hx] at hclient
    obtain rfl : outcome' = outcome := hsame
    cases outcome' with
    | error e => exact ⟨rfl, hy⟩
    | ok u => exact ih hy (hs.of_wiring (.of_eq hclient))

theorem sendWrapped (h : x.Alike view x') (hs : x.Sees view)
    (wrapped : Except BusError Outgoing) :
    Agree view (x.sendWrapped wrapped) (x'.sendWrapped wrapped) := by
  cases wrapped with
  | error e => exact ⟨rfl, h⟩
  | ok r => exact h.send hs r

theorem publish {T : Type} [Encode T] (h : x.Alike view x') (hs : x.Sees view)
    (now : Timestamp) (value : T) (topic : String) (lane : Lane) :
    Agree view (x.publish now value topic lane) (x'.publish now value topic lane) := by
  unfold Session.publish
  rw [h.client]
  split
  · exact ⟨rfl, h⟩
  · exact h.sendWrapped hs _

theorem publishDerived {U T : Type} [Encode U] [Encode T] (h : x.Alike view x')
    (hs : x.Sees view) (now : Timestamp) (input : U) (value : T) (topic : String) (lane : Lane) :
    Agree view (x.publishDerived now input value topic lane)
      (x'.publishDerived now input value topic lane) := by
  unfold Session.publishDerived
  rw [h.client]
  split
  · exact ⟨rfl, h⟩
  · exact h.sendWrapped hs _

theorem publishError {U : Type} [Encode U] (h : x.Alike view x') (hs : x.Sees view)
    (now : Timestamp) (input : U) (failure : Failure) (topic : String) :
    Agree view (x.publishError now input failure topic)
      (x'.publishError now input failure topic) := by
  unfold Session.publishError
  rw [h.client]
  split
  · exact ⟨rfl, h⟩
  · exact h.sendWrapped hs _

/-! ## Taking records -/

theorem sync (h : x.Alike view x') : Agree view x.sync x'.sync := by
  unfold Session.sync Connection.subscribe
  rw [h.client]
  split
  · exact ⟨rfl, h⟩
  · cases x.client.connection.usable x.client.connection.outage.subscribe "subscribe" with
    | error e => exact ⟨rfl, h⟩
    | ok u =>
      dsimp only
      rw [Connection.track_congr h.committed]
      exact ⟨rfl, h.withClient rfl⟩

theorem listen (h : x.Alike view x') : Agree view x.listen x'.listen := by
  unfold Session.listen
  rw [h.client]
  split
  · exact ⟨rfl, h⟩
  · exact h.sync

theorem fetch (h : x.Alike view x') (now : Timestamp) (addresses : List String) :
    Agree view (x.fetch now addresses) (x'.fetch now addresses) := by
  obtain ⟨client, broker, state, events⟩ := x'
  obtain rfl : client = x.client := h.client
  unfold Session.fetch Connection.fetch
  rw [Connection.takeReady_congr h.log]
  cases x.client.connection.usable x.client.connection.outage.fetch "fetch" with
  | error e => exact ⟨rfl, h.withConnection rfl⟩
  | ok u =>
    rcases Connection.takeReady x.broker x.client.connection.positions addresses with
      ⟨outcome, positions⟩
    cases outcome with
    | error e => exact ⟨rfl, h.withConnection rfl⟩
    | ok records =>
      have hnoted (b : Broker) := Connection.noteFetched_logs_committed
        x.client.connection.identity now b records
      have hmoved := h.withConnection (c := { x.client.connection with positions }) rfl
      refine ⟨rfl, hmoved.withBroker (fun a => ?_) fun a => ?_⟩
      · rw [Broker.log_of_logs (hnoted _).1, Broker.log_of_logs (hnoted _).1]
        exact h.log a
      · rw [Broker.committedOffset, Broker.committedOffset, (hnoted _).2, (hnoted _).2]
        exact h.committed a

theorem takeAny (h : x.Alike view x') (now : Timestamp) :
    Agree view (x.takeAny now) (x'.takeAny now) := by
  have hfetch := h.fetch now (x.client.addresses fun _ => true)
  unfold Session.takeAny
  rw [h.client]
  rcases hx : x.fetch now (x.client.addresses fun _ => true) with ⟨outcome, y⟩
  rcases hx' : x'.fetch now (x.client.addresses fun _ => true) with ⟨outcome', y'⟩
  rw [hx, hx'] at hfetch
  obtain ⟨rfl, hy⟩ : outcome' = outcome ∧ y.Alike view y' := hfetch
  cases outcome' with
  | error e => exact ⟨rfl, hy⟩
  | ok records => exact ⟨by dsimp only; rw [hy.client], hy⟩

theorem takeUrgent (h : x.Alike view x') (now : Timestamp) :
    Agree view (x.takeUrgent now) (x'.takeUrgent now) := by
  unfold Session.takeUrgent
  rw [h.client]
  split
  · exact ⟨rfl, h⟩
  · exact h.fetch now _

theorem take (h : x.Alike view x') (now : Timestamp) :
    Agree view (x.take now) (x'.take now) := by
  have hfirst := h.takeUrgent now
  rw [take_eq, take_eq]
  rcases hx : x.takeUrgent now with ⟨outcome, y⟩
  rcases hx' : x'.takeUrgent now with ⟨outcome', y'⟩
  rw [hx, hx'] at hfirst
  obtain ⟨rfl, hy⟩ : outcome' = outcome ∧ y.Alike view y' := hfirst
  cases outcome' with
  | error e => exact ⟨rfl, hy⟩
  | ok records =>
    cases records with
    | nil => exact hy.takeAny now
    | cons r rest => exact ⟨rfl, hy⟩

theorem gather (h : x.Alike view x') (now : Timestamp) (waited : Bool) :
    Agree view (x.gather now waited) (x'.gather now waited) := by
  have hlisten := h.listen
  unfold Session.gather
  rcases hx : x.listen with ⟨outcome, y⟩
  rcases hx' : x'.listen with ⟨outcome', y'⟩
  rw [hx, hx'] at hlisten
  obtain ⟨rfl, hy⟩ : outcome' = outcome ∧ y.Alike view y' := hlisten
  cases outcome' with
  | error e => exact ⟨rfl, hy⟩
  | ok u =>
    dsimp only
    rw [hy.client]
    split
    · exact ⟨rfl, hy⟩
    · split
      · exact hy.takeAny now
      · exact hy.take now

/-! ## Dispatching -/

/-- The reactions to a record are alike. -/
theorem reaction (h : x.Alike view x') (hs : x.Sees view) {r : Record} {s : Subscription σ}
    {lane : Lane} (hreceiver : x.client.receiver? r.address = some (s, lane)) (o : Outbox) :
    (s.handler r lane o x.state).Alike view (s.handler r lane o x'.state) :=
  hs.handlers s (Client.mem_subscriptions_of_receiver? hreceiver) r lane o _ _ h.state

theorem dispatch (h : x.Alike view x') (hs : x.Sees view) (now : Timestamp) (r : Record) :
    Agree view (x.dispatch now r) (x'.dispatch now r) := by
  obtain ⟨client, broker, state, events⟩ := x'
  obtain rfl : client = x.client := h.client
  unfold Session.dispatch
  dsimp only
  cases hreceiver : x.client.receiver? r.address with
  | none => exact ⟨rfl, h.logged _⟩
  | some found =>
    obtain ⟨s, lane⟩ := found
    have hreaction := h.reaction hs hreceiver { provenance := x.client.provenance, now }
    have hkept := h.withState hreaction.state
    dsimp only at hreaction ⊢
    rw [hreaction.delivery, hreaction.pending, hreaction.events]
    split
    · exact (hkept.logged _).sendAll ⟨hs.handlers, hs.sends⟩ _
    · exact ((hkept.logged _).logged _).send ⟨hs.handlers, hs.sends⟩ _
    · exact ⟨rfl, (hkept.logged _).logged _⟩

theorem seekAll (h : x.Alike view x') (entries : List (String × Nat)) :
    (x.seekAll entries).Alike view (x'.seekAll entries) := by
  induction entries generalizing x x' with
  | nil => exact h
  | cons e rest ih =>
    unfold Session.seekAll
    rw [h.client]
    split
    · rename_i connection hseek
      refine ih (h.withConnection ?_)
      unfold Connection.seek at hseek
      split at hseek
      · cases hseek
      · split at hseek
        · cases hseek
        · cases hseek
          rfl
    · exact ih (h.logged _)

theorem dispatchAll (h : x.Alike view x') (hs : x.Sees view) (now : Timestamp)
    (records : List Record) :
    Agree view (x.dispatchAll now records) (x'.dispatchAll now records) := by
  induction records generalizing x x' with
  | nil => exact ⟨rfl, h⟩
  | cons r rest ih =>
    have hdispatch := h.dispatch hs now r
    have hclient := (x.dispatch_steady now r).client
    unfold Session.dispatchAll
    rcases hx : x.dispatch now r with ⟨outcome, y⟩
    rcases hx' : x'.dispatch now r with ⟨outcome', y'⟩
    rw [hx, hx'] at hdispatch
    rw [hx] at hclient
    obtain ⟨rfl, hy⟩ : outcome' = outcome ∧ y.Alike view y' := hdispatch
    cases outcome' with
    | error e => exact ⟨rfl, hy.seekAll _⟩
    | ok u => exact ih hy (hs.of_wiring (.of_eq hclient))

theorem completes (h : x.Alike view x') (hs : x.Sees view) (now : Timestamp) (r : Record) :
    x'.completes now r = x.completes now r := by
  unfold Session.completes
  rw [h.client]
  cases hreceiver : x.client.receiver? r.address with
  | none => rfl
  | some found =>
    obtain ⟨s, lane⟩ := found
    have hreaction := h.reaction hs hreceiver { provenance := x.client.provenance, now }
    dsimp only
    rw [hreaction.delivery, hreaction.pending]
    simp only [Connection.sendsAll_congr hs.sends h.log]

theorem attempts (h : x.Alike view x') (hs : x.Sees view) (now : Timestamp)
    (records : List Record) : x'.attempts now records = x.attempts now records := by
  induction records generalizing x x' with
  | nil => rfl
  | cons r rest ih =>
    have hrest := ih (h.dispatch hs now r).2
      (hs.of_wiring (.of_eq (x.dispatch_steady now r).client))
    rw [Session.attempts, Session.attempts, h.completes hs, hrest]

/-! ## Passes -/

/-- A pass gives the same result, and makes the same attempts. -/
theorem pass (h : x.Alike view x') (hs : x.Sees view) (hw : x.client.Wired) (now : Timestamp)
    (waited : Bool) : Agree view (x.pass now waited) (x'.pass now waited) ∧
      x'.passAttempts now waited = x.passAttempts now waited := by
  have hgather := h.gather now waited
  unfold Session.pass passAttempts
  rcases hx : x.gather now waited with ⟨outcome, y⟩
  rcases hx' : x'.gather now waited with ⟨outcome', y'⟩
  rw [hx, hx'] at hgather
  obtain ⟨rfl, hy⟩ : outcome' = outcome ∧ y.Alike view y' := hgather
  cases outcome' with
  | error e => exact ⟨⟨rfl, hy⟩, rfl⟩
  | ok records =>
    have hsy := hs.of_wiring (gather_wiring hw hx)
    obtain ⟨hsame, hz⟩ := hy.dispatchAll hsy now records
    refine ⟨?_, hy.attempts hsy now records⟩
    dsimp only
    rcases hd : y.dispatchAll now records with ⟨result, z⟩
    rcases hd' : y'.dispatchAll now records with ⟨result', z'⟩
    rw [hd, hd'] at hsame hz
    obtain rfl : result' = result := hsame
    cases result' with
    | error e => exact ⟨rfl, hz⟩
    | ok u => exact ⟨rfl, hz⟩

/-! ## The other operations -/

theorem commit (h : x.Alike view x') : Agree view x.commit x'.commit := by
  obtain ⟨client, broker, state, events⟩ := x'
  obtain rfl : client = x.client := h.client
  unfold Session.commit Connection.commit
  split
  · exact ⟨rfl, h⟩
  · cases x.client.connection.usable x.client.connection.outage.commit "commit" with
    | error e => exact ⟨rfl, h⟩
    | ok u =>
      refine ⟨rfl, h.withBroker (fun a => ?_) fun a => ?_⟩
      · rw [Broker.log_of_logs (Broker.logs_commitAll ..),
          Broker.log_of_logs (Broker.logs_commitAll ..)]
        exact h.log a
      · have hnodup := x.client.connection.positions.nodup
        rw [Broker.committedOffset_commitAll _ _ hnodup,
          Broker.committedOffset_commitAll _ _ hnodup, h.committed]

theorem heartbeat (h : x.Alike view x') (now : Timestamp) :
    Agree view (x.heartbeat now) (x'.heartbeat now) := by
  obtain ⟨client, broker, state, events⟩ := x'
  obtain rfl : client = x.client := h.client
  unfold Session.heartbeat Connection.heartbeat
  split
  · exact ⟨rfl, h⟩
  · cases x.client.connection.usable x.client.connection.outage.heartbeat "heartbeat" with
    | error e => exact ⟨rfl, h⟩
    | ok u => exact ⟨rfl, h.withBroker h.log h.committed⟩

theorem stop (h : x.Alike view x') : Agree view x.stop x'.stop := by
  obtain ⟨client, broker, state, events⟩ := x'
  obtain rfl : client = x.client := h.client
  unfold Session.stop Connection.close
  split
  · exact ⟨rfl, h⟩
  · have hstopped := h.withClient (c := { x.client with stopped := true }) rfl
    dsimp only
    cases x.client.connection.outage.close with
    | true => exact ⟨rfl, hstopped⟩
    | false =>
      exact ⟨rfl, hstopped.withConnection
        (c := { x.client.connection with positions := .empty, closed := true }) rfl⟩

theorem registered (h : x.Alike view x') {registered : Except BusError (Client σ)}
    (hidentity : ∀ c, registered = .ok c →
      c.connection.identity = x.client.connection.identity) :
    (x.registered registered).Alike view (x'.registered registered) := by
  cases registered with
  | error e => exact h
  | ok c => exact h.withClient (hidentity c rfl)

end Alike
end Session

/-! ## Operations -/

namespace Operation

/-- What an operation answers: a poll the number of records that were dispatched, and
any other operation nothing. -/
def answer (now : Timestamp) (x : Session σ) : Operation σ → Except BusError Nat
  | subscribe topic callback => (x.client.subscribe topic callback).map fun _ => 0
  | subscribeWith topic callback onError =>
    (x.client.subscribeWith topic callback onError).map fun _ => 0
  | subscribeErrors topic callback => (x.client.subscribeErrors topic callback).map fun _ => 0
  | publish value topic lane => (x.publish now value topic lane).1.map fun _ => 0
  | publishDerived input value topic lane =>
    (x.publishDerived now input value topic lane).1.map fun _ => 0
  | publishError input failure topic => (x.publishError now input failure topic).1.map fun _ => 0
  | poll => (x.poll now).1
  | listen => x.listen.1.map fun _ => 0
  | resume => (x.pass now true).1
  | commit => x.commit.1.map fun _ => 0
  | heartbeat => (x.heartbeat now).1.map fun _ => 0
  | stop => x.stop.1.map fun _ => 0

/-- **A client depends on nothing but what counts as alike.** -/
theorem perform_alike {view : σ → τ} {x x' : Session σ} (h : x.Alike view x') (hs : x.Sees view)
    (hw : x.client.Wired) (now : Timestamp) (op : Operation σ) :
    op.answer now x' = op.answer now x ∧ op.attempts now x' = op.attempts now x ∧
      (op.perform now x).Alike view (op.perform now x') := by
  have hagree {α : Type} {r r' : Except BusError α × Session σ} (hr : Session.Agree view r r') :
      (r'.1.map fun _ => 0) = (r.1.map fun _ => 0) ∧ ([] : List Attempt) = [] ∧
        r.2.Alike view r'.2 := ⟨by rw [hr.1], rfl, hr.2⟩
  have hregistered (topic : String) (kind : SubscriptionKind) (handler : Handler σ) :
      ((if x'.client.stopped then .error .stopped
          else .ok (x'.client.register topic kind handler) : Except BusError (Client σ)).map
            fun _ => 0) =
        ((if x.client.stopped then .error .stopped
          else .ok (x.client.register topic kind handler) : Except BusError (Client σ)).map
            fun _ => 0) ∧ ([] : List Attempt) = [] ∧
      (x.registered (if x.client.stopped then .error .stopped
          else .ok (x.client.register topic kind handler))).Alike view
        (x'.registered (if x'.client.stopped then .error .stopped
          else .ok (x'.client.register topic kind handler))) := by
    rw [h.client]
    refine ⟨rfl, rfl, h.registered ?_⟩
    intro c hc
    split at hc
    · cases hc
    · cases hc
      rw [Client.register_connection]
  cases op with
  | subscribe topic callback => exact hregistered ..
  | subscribeWith topic callback onError => exact hregistered ..
  | subscribeErrors topic callback => exact hregistered ..
  | publish value topic lane => exact hagree (h.publish hs now value topic lane)
  | publishDerived input value topic lane =>
    exact hagree (h.publishDerived hs now input value topic lane)
  | publishError input failure topic => exact hagree (h.publishError hs now input failure topic)
  | poll =>
    obtain ⟨⟨hsame, hy⟩, hattempts⟩ := h.pass hs hw now false
    exact ⟨hsame, hattempts, hy⟩
  | listen => exact hagree h.listen
  | resume =>
    obtain ⟨⟨hsame, hy⟩, hattempts⟩ := h.pass hs hw now true
    exact ⟨hsame, hattempts, hy⟩
  | commit => exact hagree h.commit
  | heartbeat => exact hagree (h.heartbeat now)
  | stop => exact hagree h.stop

end Operation
end LaneBus
