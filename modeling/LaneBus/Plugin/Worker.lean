import LaneBus.Client
import LaneBus.Options.Bundle

/-! # Workers

A worker polls its client over and over.  A pass that dispatched records is
followed by a commit, so that progress becomes durable at once; an idle pass is
followed by a sign of life.  After enough idle passes in a row the worker stops
its client and is finished.
-/
namespace LaneBus

/-- The options of a worker. -/
structure WorkerOptions where
  /-- The idle passes in a row after which the worker stops; 0 keeps it going. -/
  maxIdlePolls : Nat := 0
  deriving DecidableEq, Repr

namespace WorkerOptions

/-- The options of a worker on the command line. -/
def bundle : Bundle where
  name := "f4sten::plugins::WorkerArgs"
  title := "WorkerArgs"
  group := some "WorkerArgs"
  about := some "Loop options shared by the built-in plugins"
  args := [{
    id := "max_idle_polls"
    long := some "max-idle-polls"
    valueName := "MAX_IDLE_POLLS"
    help := "Stop after this many consecutive empty polls (0 keeps running)"
    type := .integer 0 (Word.maxNat 64)
    default := some "0" }]
  defaults := [("max_idle_polls", "0")]

/-- The options found on a command line. -/
def ofMatches (m : Matches) : WorkerOptions :=
  { maxIdlePolls := ((m.int? "max_idle_polls").getD 0).toNat }

end WorkerOptions

/-- A pass of a worker: when it takes place, and what others have appended since
the pass before. -/
structure Pass where
  now : Timestamp
  arrivals : List Outgoing := []

/-- A worker between two passes. -/
structure Worker (σ : Type) where
  session : Session σ
  options : WorkerOptions := {}
  /-- The records dispatched so far. -/
  dispatched : Nat := 0
  /-- The idle passes since the last record. -/
  idle : Nat := 0

/-- What a worker is like after some passes. -/
inductive Turn (σ : Type) where
  | going (worker : Worker σ)
  | finished (dispatched : Nat) (session : Session σ)
  | failed (e : BusError) (session : Session σ)

namespace Worker

variable {σ : Type}

/-- Ends the work. -/
def stop (w : Worker σ) : Turn σ :=
  match w.session.stop with
  | (.ok (), x) => .finished w.dispatched x
  | (.error e, x) => .failed e x

/-- Whether the worker has been idle for long enough. -/
def isIdle (w : Worker σ) : Bool :=
  0 < w.options.maxIdlePolls && w.options.maxIdlePolls ≤ w.idle

/-- Runs one pass. -/
def pass (w : Worker σ) (now : Timestamp) : Turn σ :=
  match w.session.poll now with
  | (.error e, x) => .failed e x
  | (.ok 0, x) =>
    match x.heartbeat now with
    | (.error e, x) => .failed e x
    | (.ok (), x) =>
      let w := { w with session := x, idle := w.idle + 1 }
      if w.isIdle then w.stop else .going w
  | (.ok n, x) =>
    match x.commit with
    | (.error e, x) => .failed e x
    | (.ok (), x) => .going { w with session := x, dispatched := w.dispatched + n, idle := 0 }

/-- The worker after others have appended records. -/
def receive (w : Worker σ) (arrivals : List Outgoing) : Worker σ :=
  let broker := arrivals.foldl (fun b r => b.append r.address r.payload) w.session.broker
  { w with session := { w.session with broker } }

/-- Runs passes until the work ends or there are no more. -/
def drive (w : Worker σ) : List Pass → Turn σ
  | [] => .going w
  | p :: rest =>
    match (w.receive p.arrivals).pass p.now with
    | .going w => drive w rest
    | ended => ended

end Worker
end LaneBus
