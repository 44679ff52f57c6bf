import LaneBus.Table
import LaneBus.Timestamp

/-! # Brokers

A broker keeps one log of record texts for every address, and for every consumer
group the position up to which each log has been handled.  It also notes when a
client last gave a sign of life, and when the consumer of a lane last received
records.
-/
namespace LaneBus

/-- A record as a broker delivers it. -/
structure Record where
  address : String
  offset : Nat
  payload : String
  deriving DecidableEq, Repr

/-- The state of a broker. -/
structure Broker where
  logs : Table String (List String) := .empty
  committed : Table (String × String) Nat := .empty
  heartbeats : Table String Timestamp := .empty
  fetches : Table String Timestamp := .empty

namespace Broker

/-- The most records of one address that a fetch returns. -/
def maxFetch : Nat := 500

/-- The log of an address. -/
def log (b : Broker) (address : String) : List String := (b.logs.get? address).getD []

/-- The broker with a record appended to the log of an address. -/
def append (b : Broker) (address payload : String) : Broker :=
  { b with logs := b.logs.insert address (b.log address ++ [payload]) }

/-- The records of an address from an offset on, as many as one fetch returns. -/
def ready (b : Broker) (address : String) (start : Nat) : List Record :=
  (((b.log address).drop start).take maxFetch).zipIdx start |>.map fun (payload, offset) =>
    { address, offset, payload }

/-- The position that a group has committed. -/
def committedOffset (b : Broker) (group address : String) : Option Nat :=
  b.committed.get? (group, address)

/-- The broker with a position committed for a group. -/
def commit (b : Broker) (group address : String) (position : Nat) : Broker :=
  { b with committed := b.committed.insert (group, address) position }

theorem log_of_logs {b b' : Broker} (h : b'.logs = b.logs) (address : String) :
    b'.log address = b.log address := by
  rw [log, log, h]

theorem log_append (b : Broker) (address other payload : String) :
    (b.append address payload).log other =
      if address = other then b.log address ++ [payload] else b.log other := by
  by_cases h : address = other <;> simp [append, log, Table.get?_insert, h]

end Broker
end LaneBus
