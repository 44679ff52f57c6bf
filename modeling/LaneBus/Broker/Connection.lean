import LaneBus.Broker
import LaneBus.Identity

/-! # Connections

A connection reads the logs of a broker for one client.  It has a read position
for every address it has subscribed to, which starts at what the group has
committed, moves with every fetch, and becomes durable by a commit.  A closed
connection refuses every call but closing again.

During an outage some calls fail and change nothing.
-/
namespace LaneBus

/-- Why a call on a connection fails. -/
inductive TransportError where
  | closed
  | notSubscribed (address : String)
  | unavailable (what : String)
  deriving DecidableEq, Repr

/-- The text of a reason. -/
def TransportError.message : TransportError → String
  | closed => "connection is closed"
  | notSubscribed address =>
    "address `" ++ address ++ "` was never subscribed on this connection"
  | unavailable what => "broker state is unavailable: " ++ what

/-- The calls that fail for the time being. -/
structure Outage where
  connect : Bool := false
  subscribe : Bool := false
  fetch : Bool := false
  seek : Bool := false
  commit : Bool := false
  heartbeat : Bool := false
  close : Bool := false
  /-- The addresses that nothing can be sent to. -/
  send : List String := []
  /-- The single records that cannot be sent: what a send meets is the broker as
  it is then, an address and a text. -/
  drops : Broker → String → String → Bool := fun _ _ _ => false

/-- The failure of a call that is down. -/
def Outage.failure (what : String) : TransportError := .unavailable (what ++ " is down")

/-- A connection of one client. -/
structure Connection where
  identity : Identity
  positions : Table String Nat := .empty
  closed : Bool := false
  outage : Outage := {}

namespace Connection

/-- A new connection. -/
def connect (identity : Identity) (outage : Outage := {}) : Except TransportError Connection :=
  if outage.connect then .error (Outage.failure "connect") else .ok { identity, outage }

/-- Checks that a call is not down and the connection is not closed. -/
def usable (c : Connection) (down : Bool) (what : String) : Except TransportError Unit :=
  if down then .error (Outage.failure what)
  else if c.closed then .error .closed
  else .ok ()

/-- The positions with those of new addresses, at what the group has committed. -/
def track (b : Broker) (group : String) (positions : Table String Nat) :
    List String → Table String Nat
  | [] => positions
  | address :: rest =>
    match positions.get? address with
    | some _ => track b group positions rest
    | none =>
      track b group (positions.insert address ((b.committedOffset group address).getD 0)) rest

/-- Starts reading some addresses. -/
def subscribe (c : Connection) (b : Broker) (addresses : List String) :
    Except TransportError Connection :=
  match c.usable c.outage.subscribe "subscribe" with
  | .error e => .error e
  | .ok () => .ok { c with positions := track b c.identity.group c.positions addresses }

/-- The records ready at some addresses, and the positions behind them.  The
first address without a position ends the walk, and those before it have moved
by then. -/
def takeReady (b : Broker) (positions : Table String Nat) :
    List String → Except TransportError (List Record) × Table String Nat
  | [] => (.ok [], positions)
  | address :: rest =>
    match positions.get? address with
    | none => (.error (.notSubscribed address), positions)
    | some start =>
      let records := b.ready address start
      let moved :=
        if records.isEmpty then positions
        else positions.insert address (start + records.length)
      match takeReady b moved rest with
      | (.error e, final) => (.error e, final)
      | (.ok others, final) => (.ok (records ++ others), final)

/-- The broker with a note that the lane consumers of some records received
them. -/
def noteFetched (identity : Identity) (now : Timestamp) (b : Broker) : List Record → Broker
  | [] => b
  | r :: rest =>
    match Lane.splitAddress? r.address with
    | none => noteFetched identity now b rest
    | some (_, lane) =>
      noteFetched identity now
        { b with fetches := b.fetches.insert (identity.laneClient lane) now } rest

/-- The records ready at some addresses.  The connection and the broker are those
after the call, whether or not it failed. -/
def fetch (c : Connection) (b : Broker) (now : Timestamp) (addresses : List String) :
    Except TransportError (List Record) × Connection × Broker :=
  match c.usable c.outage.fetch "fetch" with
  | .error e => (.error e, c, b)
  | .ok () =>
    match takeReady b c.positions addresses with
    | (.error e, positions) => (.error e, { c with positions }, b)
    | (.ok records, positions) =>
      (.ok records, { c with positions }, noteFetched c.identity now b records)

/-- A fetch that waits for records while others append some: it returns as soon
as one of its addresses has any, and empty-handed when none comes.  All of the
late records are appended in the end. -/
def fetchWaiting (c : Connection) (b : Broker) (now : Timestamp) (addresses : List String) :
    (late : List (String × String)) → Except TransportError (List Record) × Connection × Broker
  | [] => c.fetch b now addresses
  | (address, payload) :: late =>
    match c.fetch b now addresses with
    | (.ok [], c, b) => fetchWaiting c (b.append address payload) now addresses late
    | (outcome, c, b) =>
      (outcome, c, ((address, payload) :: late).foldl (fun b (a, p) => b.append a p) b)

/-- Moves the position of an address. -/
def seek (c : Connection) (address : String) (offset : Nat) : Except TransportError Connection :=
  match c.usable c.outage.seek "seek" with
  | .error e => .error e
  | .ok () =>
    match c.positions.get? address with
    | none => .error (.notSubscribed address)
    | some _ => .ok { c with positions := c.positions.insert address offset }

/-- Appends a record. -/
def send (c : Connection) (b : Broker) (address payload : String) :
    Except TransportError Broker :=
  match c.usable (c.outage.send.contains address || c.outage.drops b address payload) address with
  | .error e => .error e
  | .ok () => .ok (b.append address payload)

/-- Makes the positions durable for the group. -/
def commit (c : Connection) (b : Broker) : Except TransportError Broker :=
  match c.usable c.outage.commit "commit" with
  | .error e => .error e
  | .ok () =>
    .ok (c.positions.entries.foldl (fun b (a, p) => b.commit c.identity.group a p) b)

/-- Gives a sign of life. -/
def heartbeat (c : Connection) (b : Broker) (now : Timestamp) : Except TransportError Broker :=
  match c.usable c.outage.heartbeat "heartbeat" with
  | .error e => .error e
  | .ok () => .ok { b with heartbeats := b.heartbeats.insert c.identity.client now }

/-- Closes the connection; positions that were not committed are gone. -/
def close (c : Connection) : Except TransportError Connection :=
  if c.outage.close then .error (Outage.failure "close")
  else .ok { c with positions := .empty, closed := true }

end Connection
end LaneBus
