import LaneBus.Client.Subscription

/-! # Bus clients

A client publishes, subscribes and polls on behalf of one plugin, over one
connection.  A poll takes the priority records that are ready, or failing that
whatever is ready, and hands each to the callback of its subscription, priority
records first.  When a record cannot be dealt with because sending fails, the
connection goes back to that record, so that a later commit never covers records
that were not handled.

A session is a client together with the broker it is connected to, what its
callbacks keep, and the events logged so far.  Every operation says what has
become of the session, whether or not it failed.
-/
namespace LaneBus

open Json

/-- An order in which a client goes through addresses that it looks at together. -/
structure Itinerary where
  arrange : List String → List String
  perm : ∀ addresses, (arrange addresses).Perm addresses

/-- The order of the texts of the addresses. -/
def Itinerary.sorted : Itinerary where
  arrange addresses := addresses.mergeSort fun a b => a ≤ b
  perm addresses := addresses.mergeSort_perm _

/-- A client of the bus. -/
structure Client (σ : Type) where
  identity : Identity
  provenance : Provenance
  connection : Connection
  pollTimeout : Nat := 1000
  subscriptions : List (Subscription σ) := []
  /-- The subscription and the lane of every address that is read. -/
  routes : Table String (Nat × Lane) := .empty
  /-- The routed addresses that the connection does not know yet. -/
  unsynced : List String := []
  stopped : Bool := false
  /-- The order in which routed addresses are fetched from. -/
  itinerary : Itinerary := .sorted

/-- A client at work. -/
structure Session (σ : Type) where
  client : Client σ
  broker : Broker
  state : σ
  events : List Event := []

namespace Client

variable {σ : Type}

/-- A client on a new connection. -/
def connect (identity : Identity) (provenance : Provenance) (outage : Outage := {}) :
    Except BusError (Client σ) :=
  match Connection.connect identity outage with
  | .error e => .error (.transport e)
  | .ok connection => .ok { identity, provenance, connection }

/-- Routes the addresses of the lanes of a topic to a subscription.  An address
without a route has to be made known to the connection. -/
def route (topic : String) (index : Nat) (c : Client σ) : List Lane → Client σ
  | [] => c
  | lane :: rest =>
    let address := lane.address topic
    let unsynced :=
      if (c.routes.get? address).isSome then c.unsynced else c.unsynced ++ [address]
    route topic index { c with routes := c.routes.insert address (index, lane), unsynced } rest

/-- Registers a handler.  It takes the place of the handler that the topic has
for the same purpose, if there is one. -/
def register (c : Client σ) (topic : String) (kind : SubscriptionKind) (handler : Handler σ) :
    Client σ :=
  let isSame (s : Subscription σ) : Bool := s.topic == topic && s.kind == kind
  match c.subscriptions.findIdx? isSame with
  | some index =>
    route topic index
      { c with subscriptions := c.subscriptions.modify index fun s => { s with handler } } kind.lanes
  | none =>
    route topic c.subscriptions.length
      { c with subscriptions := c.subscriptions ++ [{ topic, kind, handler }] } kind.lanes

/-- Registers a callback for the normal and priority lanes of a topic, with
reports in the form of error envelopes. -/
def subscribe {I P : Type} [Decode I] [Decode P] [Encode I] [Encode P] (c : Client σ)
    (topic : String) (callback : Callback σ I P) : Except BusError (Client σ) :=
  if c.stopped then .error .stopped
  else .ok (c.register topic .consumer (.consumer callback defaultReport))

/-- Registers a callback for the normal and priority lanes of a topic, with
reports made by `onError`. -/
def subscribeWith {I P : Type} [Decode I] [Decode P] (c : Client σ) (topic : String)
    (callback : Callback σ I P) (onError : ErrorHandler σ I P) : Except BusError (Client σ) :=
  if c.stopped then .error .stopped
  else .ok (c.register topic .consumer (.consumer callback onError.report))

/-- Registers a monitor for the error lane of a topic. -/
def subscribeErrors (c : Client σ) (topic : String) (callback : MonitorCallback σ) :
    Except BusError (Client σ) :=
  if c.stopped then .error .stopped else .ok (c.register topic .monitor (.monitor callback))

/-- The routed addresses whose lanes satisfy a condition, in the order of the
client. -/
def addresses (c : Client σ) (p : Lane → Bool) : List String :=
  c.itinerary.arrange ((c.routes.entries.filter fun (_, _, lane) => p lane).map Prod.fst)

/-- The subscription that reads an address, and the lane of the address. -/
def receiver? (c : Client σ) (address : String) : Option (Subscription σ × Lane) :=
  match c.routes.get? address with
  | none => none
  | some (index, lane) => c.subscriptions[index]?.map (·, lane)

/-- Whether a record comes from a priority lane. -/
def isPriority (c : Client σ) (r : Record) : Bool :=
  match c.routes.get? r.address with
  | some (_, .priority) => true
  | _ => false

end Client

namespace Session

variable {σ : Type} {U T : Type} [Encode U] [Encode T]

/-- Replaces the connection. -/
def withConnection (x : Session σ) (connection : Connection) : Session σ :=
  { x with client := { x.client with connection } }

/-- Logs events. -/
def logged (x : Session σ) (events : List Event) : Session σ :=
  { x with events := x.events ++ events }

/-- Sends one record. -/
def send (x : Session σ) (r : Outgoing) : Except BusError Unit × Session σ :=
  match x.client.connection.send x.broker r.address r.payload with
  | .error e => (.error (.transport e), x)
  | .ok broker => (.ok (), { x with broker })

/-- Sends records in order, up to the first that fails. -/
def sendAll (x : Session σ) : List Outgoing → Except BusError Unit × Session σ
  | [] => (.ok (), x)
  | r :: rest =>
    match x.send r with
    | (.ok (), x) => sendAll x rest
    | failed => failed

/-- Sends a record that could be wrapped. -/
def sendWrapped (x : Session σ) : Except BusError Outgoing → Except BusError Unit × Session σ
  | .error e => (.error e, x)
  | .ok r => x.send r

/-- Publishes a value. -/
def publish (x : Session σ) (now : Timestamp) (value : T) (topic : String) (lane : Lane) :
    Except BusError Unit × Session σ :=
  if x.client.stopped then (.error .stopped, x)
  else
    x.sendWrapped
      (Outgoing.ofValue x.client.provenance now (none : Option Value) value topic lane)

/-- Publishes a value derived from an input. -/
def publishDerived (x : Session σ) (now : Timestamp) (input : U) (value : T) (topic : String)
    (lane : Lane) : Except BusError Unit × Session σ :=
  if x.client.stopped then (.error .stopped, x)
  else x.sendWrapped (Outgoing.ofValue x.client.provenance now (some input) value topic lane)

/-- Reports a failure on the error lane of a topic. -/
def publishError (x : Session σ) (now : Timestamp) (input : U) (f : Failure) (topic : String) :
    Except BusError Unit × Session σ :=
  if x.client.stopped then (.error .stopped, x)
  else
    x.sendWrapped
      (Outgoing.ofEnvelope x.client.provenance
        (Envelope.failed now (some input) f.details : Envelope U Value) topic .error)

/-- Makes new addresses known to the connection. -/
def sync (x : Session σ) : Except BusError Unit × Session σ :=
  if x.client.unsynced.isEmpty then (.ok (), x)
  else
    match x.client.connection.subscribe x.broker x.client.unsynced with
    | .error e => (.error (.transport e), x)
    | .ok connection => (.ok (), { x with client := { x.client with connection, unsynced := [] } })

/-- Begins a pass: a running client makes its new addresses known. -/
def listen (x : Session σ) : Except BusError Unit × Session σ :=
  if x.client.stopped then (.error .stopped, x) else x.sync

/-- Fetches the records that are ready at some addresses. -/
def fetch (x : Session σ) (now : Timestamp) (addresses : List String) :
    Except BusError (List Record) × Session σ :=
  match x.client.connection.fetch x.broker now addresses with
  | (.error e, connection, broker) =>
    (.error (.transport e), { x.withConnection connection with broker })
  | (.ok records, connection, broker) =>
    (.ok records, { x.withConnection connection with broker })

/-- All records that are ready, those of the priority lanes first. -/
def takeAny (x : Session σ) (now : Timestamp) : Except BusError (List Record) × Session σ :=
  match x.fetch now (x.client.addresses fun _ => true) with
  | (.ok records, x) =>
    (.ok (records.filter x.client.isPriority ++
      records.filter fun r => !x.client.isPriority r), x)
  | failed => failed

/-- The records of the priority lanes if any are ready, and otherwise all that
are ready. -/
def take (x : Session σ) (now : Timestamp) : Except BusError (List Record) × Session σ :=
  let priority := x.client.addresses (· == .priority)
  let first := if priority.isEmpty then (.ok [], x) else x.fetch now priority
  match first with
  | (.ok [], x) => x.takeAny now
  | taken => taken

/-- The records of one pass.  A pass that has `waited` has found no priority
records before, and takes whatever has come in since. -/
def gather (x : Session σ) (now : Timestamp) (waited : Bool) :
    Except BusError (List Record) × Session σ :=
  match x.listen with
  | (.error e, x) => (.error e, x)
  | (.ok (), x) =>
    if x.client.routes.entries.isEmpty then (.ok [], x)
    else if waited then x.takeAny now
    else x.take now

/-- A logged warning. -/
def warning (message : String) : Event := { severity := .warn, message }

/-- The name of a record in the log. -/
def recordName (r : Record) : String := r.address ++ "@" ++ r.offset.repr

/-- Hands a record to its subscription and sends what comes of it. -/
def dispatch (x : Session σ) (now : Timestamp) (r : Record) : Except BusError Unit × Session σ :=
  match x.client.receiver? r.address with
  | none => (.ok (), x.logged [warning ("dropping record from unrouted address " ++ r.address)])
  | some (s, lane) =>
    let reaction := s.handler r lane { provenance := x.client.provenance, now } x.state
    let x := { x with state := reaction.state }.logged reaction.events
    match reaction.delivery with
    | .handled => x.sendAll reaction.outbox.pending
    | .rejected f report =>
      let x := x.logged [warning ("processing " ++ recordName r ++
        " failed, reporting on ERROR lane: " ++ f.display)]
      x.send { address := Lane.error.address s.topic, payload := report }
    | .dropped f =>
      (.ok (), x.logged [warning ("error record " ++ recordName r ++
        " could not be handled: " ++ f.display)])

/-- The first offset of every address among some records, the addresses in the
order in which they come. -/
def firstOffsets : List Record → Table String Nat → Table String Nat
  | [], firsts => firsts
  | r :: rest, firsts =>
    firstOffsets rest
      (firsts.insert r.address
        (match firsts.get? r.address with
        | some offset => min offset r.offset
        | none => r.offset))

/-- Moves the connection to some offsets.  A failure is logged and skipped. -/
def seekAll (x : Session σ) : List (String × Nat) → Session σ
  | [] => x
  | (address, offset) :: rest =>
    match x.client.connection.seek address offset with
    | .ok connection => seekAll (x.withConnection connection) rest
    | .error e =>
      seekAll (x.logged [{
        severity := .error
        message := "cannot rewind " ++ address ++ " to " ++ offset.repr ++ ": " ++ e.message }]) rest

/-- Moves the connection back to the first of some records at every address. -/
def rewind (x : Session σ) (pending : List Record) : Session σ :=
  x.seekAll (firstOffsets pending .empty).entries

/-- Dispatches records in order.  When one fails, the connection goes back to it
and those behind it. -/
def dispatchAll (x : Session σ) (now : Timestamp) : List Record → Except BusError Unit × Session σ
  | [] => (.ok (), x)
  | r :: rest =>
    match x.dispatch now r with
    | (.ok (), x) => dispatchAll x now rest
    | (.error e, x) => (.error e, x.rewind (r :: rest))

/-- Runs one pass and counts the records dispatched. -/
def pass (x : Session σ) (now : Timestamp) (waited : Bool) : Except BusError Nat × Session σ :=
  match x.gather now waited with
  | (.error e, x) => (.error e, x)
  | (.ok records, x) =>
    match x.dispatchAll now records with
    | (.error e, x) => (.error e, x)
    | (.ok (), x) => (.ok records.length, x)

/-- Runs one pass over what is ready. -/
def poll (x : Session σ) (now : Timestamp) : Except BusError Nat × Session σ :=
  x.pass now false

/-- Makes the positions of the connection durable. -/
def commit (x : Session σ) : Except BusError Unit × Session σ :=
  if x.client.stopped then (.error .stopped, x)
  else
    match x.client.connection.commit x.broker with
    | .error e => (.error (.transport e), x)
    | .ok broker => (.ok (), { x with broker })

/-- Gives a sign of life. -/
def heartbeat (x : Session σ) (now : Timestamp) : Except BusError Unit × Session σ :=
  if x.client.stopped then (.error .stopped, x)
  else
    match x.client.connection.heartbeat x.broker now with
    | .error e => (.error (.transport e), x)
    | .ok broker => (.ok (), { x with broker })

/-- Stops the client and closes its connection.  Stopping again does nothing. -/
def stop (x : Session σ) : Except BusError Unit × Session σ :=
  if x.client.stopped then (.ok (), x)
  else
    let x := { x with client := { x.client with stopped := true } }
    match x.client.connection.close with
    | .error e => (.error (.transport e), x)
    | .ok connection => (.ok (), x.withConnection connection)

end Session
end LaneBus
