import LaneBus.Proofs.Groups
import LaneBus.Proofs.Newcomers

/-! # Stopping

A client that has stopped refuses every operation before it looks at anything else, and so
does a closed connection every call; only to be stopped or closed once more does no harm.  So a
stopped member is inert (`Bus.Inert`): a bus goes on as if nobody asked it for anything.

What the member has read and not committed is gone with its connection.  Whoever joins its
group is handed the records from the committed offset on, those among them
(`Bus.run_stopped_inert`).
-/
namespace LaneBus

open Json

variable {σ : Type}

/-! ## Closed connections -/

namespace Connection

variable {c c' : Connection} {b : Broker}

/-- What a call answers. -/
def answer (c : Connection) (b : Broker) : Call → Except TransportError Unit
  | .subscribe addresses => (c.subscribe b addresses).map fun _ => ()
  | .fetch now addresses late => (c.fetchWaiting b now addresses late).1.map fun _ => ()
  | .seek address offset => (c.seek address offset).map fun _ => ()
  | .send address payload => (c.send b address payload).map fun _ => ()
  | .commit => (c.commit b).map fun _ => ()
  | .heartbeat now => (c.heartbeat b now).map fun _ => ()
  | .close => c.close.map fun _ => ()

/-- Whether a call closes the connection. -/
def Call.isClose : Call → Bool
  | .close => true
  | _ => false

/-- What others append while a call waits. -/
def Call.late : Call → List (String × String)
  | .fetch _ _ late => late
  | _ => []

/-- A connection that has been closed, and of which no call is down. -/
structure Closed (c : Connection) : Prop where
  closed : c.closed = true
  positions : c.positions = .empty
  outage : c.outage = {}

theorem closed_of_close (hup : c.outage = {}) (h : c.close = .ok c') : c'.Closed := by
  unfold close at h
  split at h
  · cases h
  · obtain rfl := Except.ok.inj h
    exact ⟨rfl, rfl, hup⟩

theorem Closed.usable (h : c.Closed) (what : String) : c.usable false what = .error .closed := by
  rw [Connection.usable, if_neg Bool.false_ne_true, if_pos h.closed]

theorem Closed.close (h : c.Closed) : c.close = .ok c := by
  rw [Connection.close, h.outage, if_neg Bool.false_ne_true]
  obtain ⟨identity, positions, closed, outage⟩ := c
  obtain ⟨rfl, rfl, rfl⟩ := h
  rfl

theorem Closed.fetchWaiting (h : c.Closed) (b : Broker) (now : Timestamp)
    (addresses : List String) (late : List (String × String)) :
    c.fetchWaiting b now addresses late =
      (.error .closed, c, late.foldl (fun b (a, p) => b.append a p) b) := by
  have hfetch : c.fetch b now addresses = (.error .closed, c, b) := by
    simp only [fetch, h.outage, h.usable]
  cases late with
  | nil => exact hfetch
  | cons arrival more => simp only [Connection.fetchWaiting, hfetch]

/-- **A closed connection** refuses every call but to be closed once more, and nothing changes
but for what others append meanwhile. -/
theorem Closed.call (h : c.Closed) (b : Broker) (next : Call) :
    c.answer b next = (if next.isClose then .ok () else .error .closed) ∧
      c.call b next = (c, next.late.foldl (fun b (a, p) => b.append a p) b) := by
  cases next with
  | subscribe addresses =>
    simp only [answer, Connection.call, subscribe, h.outage, h.usable]
    exact ⟨rfl, rfl⟩
  | fetch now addresses late =>
    simp only [answer, Connection.call, h.fetchWaiting]
    exact ⟨rfl, rfl⟩
  | seek address offset =>
    simp only [answer, Connection.call, seek, h.outage, h.usable]
    exact ⟨rfl, rfl⟩
  | send address payload =>
    have hup : (c.outage.send.contains address || c.outage.drops b address payload) = false := by
      rw [h.outage]
      rfl
    simp only [answer, Connection.call, send, hup, h.usable]
    exact ⟨rfl, rfl⟩
  | commit =>
    simp only [answer, Connection.call, commit, h.outage, h.usable]
    exact ⟨rfl, rfl⟩
  | heartbeat now =>
    simp only [answer, Connection.call, heartbeat, h.outage, h.usable]
    exact ⟨rfl, rfl⟩
  | close =>
    simp only [answer, Connection.call, h.close]
    exact ⟨rfl, rfl⟩

theorem Closed.calls (h : c.Closed) (b : Broker) (requests : List Call) :
    c.calls b requests =
      (c, (requests.flatMap Call.late).foldl (fun b (a, p) => b.append a p) b) := by
  induction requests generalizing b with
  | nil => rfl
  | cons next rest ih =>
    rw [Connection.calls, (h.call b next).2, List.flatMap_cons, List.foldl_append]
    exact ih _

end Connection

/-! ## Stopped clients -/

namespace Operation

variable {x : Session σ}

/-- **A stopped client** refuses every operation but to be stopped once more, and does nothing at
all. -/
theorem perform_of_stopped (hstopped : x.client.stopped = true) (now : Timestamp)
    (op : Operation σ) :
    op.answer now x = (if op.isStop then .ok 0 else .error .stopped) ∧
      op.attempts now x = [] ∧ op.perform now x = x := by
  have hrefused {α : Type} {r : Except BusError α × Session σ} (h : r = (.error .stopped, x)) :
      (r.1.map fun _ => 0) = .error .stopped ∧ ([] : List Attempt) = [] ∧ r.2 = x := by
    rw [h]
    exact ⟨rfl, rfl, rfl⟩
  have hregistered {r : Except BusError (Client σ)} (h : r = .error .stopped) :
      (r.map fun _ => 0) = .error .stopped ∧ ([] : List Attempt) = [] ∧ x.registered r = x := by
    rw [h]
    exact ⟨rfl, rfl, rfl⟩
  have hlisten : x.listen = (.error .stopped, x) := if_pos hstopped
  have hpass (waited : Bool) : (x.pass now waited).1 = .error .stopped ∧
      x.passAttempts now waited = [] ∧ (x.pass now waited).2 = x := by
    obtain ⟨hnil, hsame⟩ := Session.pass_of_not_listen hlisten now waited
    exact ⟨congrArg Prod.fst hsame, hnil, congrArg Prod.snd hsame⟩
  cases op with
  | subscribe topic callback => exact hregistered (if_pos hstopped)
  | subscribeWith topic callback onError => exact hregistered (if_pos hstopped)
  | subscribeErrors topic callback => exact hregistered (if_pos hstopped)
  | publish value topic lane => exact hrefused (if_pos hstopped)
  | publishDerived input value topic lane => exact hrefused (if_pos hstopped)
  | publishError input failure topic => exact hrefused (if_pos hstopped)
  | poll => exact hpass false
  | listen => exact hrefused hlisten
  | resume => exact hpass true
  | commit => exact hrefused (if_pos hstopped)
  | heartbeat => exact hrefused (if_pos hstopped)
  | stop =>
    have hstop : x.stop = (.ok (), x) := if_pos hstopped
    rw [answer, perform, hstop]
    exact ⟨rfl, rfl, rfl⟩

end Operation

namespace Session

variable {x : Session σ}

theorem stop_stopped (x : Session σ) : x.stop.2.client.stopped = true := by
  unfold stop
  split
  · assumption
  · dsimp only
    split <;> rfl

/-- Stopping a client on a connection that is up closes the connection. -/
theorem stop_closes (hup : x.Up) : x.stop.2.client.connection.Closed := by
  have hclose := hup.connection.outage
  unfold stop
  rw [hup.running, if_neg Bool.false_ne_true]
  dsimp only
  split
  · rename_i e herr
    rw [Connection.close, hclose, if_neg Bool.false_ne_true] at herr
    cases herr
  · rename_i connection hok
    exact Connection.closed_of_close hclose hok

end Session

theorem Member.after_of_stopped {m : Member σ} (hstopped : m.client.stopped = true) (b : Broker)
    (state : σ) (now : Timestamp) (op : Operation σ) : m.after b state now op = m := by
  obtain ⟨-, hnil, hsame⟩ := Operation.perform_of_stopped (x := m.session b state) hstopped now op
  have hclient : (m.after b state now op).client = m.client := congrArg Session.client hsame
  have hjournal : (m.after b state now op).journal = m.journal := by
    rw [after, hnil, List.append_nil]
  have hstarted : (m.after b state now op).started = m.started := by
    funext a
    exact started_of_kept (.inl (by rw [position?, position?, hclient]))
  have hparts {n : Member σ} (hc : n.client = m.client) (hj : n.journal = m.journal)
      (hs : n.started = m.started) : n = m := by
    cases n
    cases m
    cases hc
    cases hj
    cases hs
    rfl
  exact hparts hclient hjournal hstarted

/-! ## Stopped members -/

/-- The action asks a member for something. -/
def Action.asks (i : Nat) : Action σ → Bool
  | .ask j _ _ => j == i
  | _ => false

namespace Bus

variable {b : Bus σ} {i : Nat} {m : Member σ}

/-- Asking a stopped member for something does nothing. -/
theorem apply_ask_of_stopped (hm : b.members[i]? = some m) (hstopped : m.client.stopped = true)
    (now : Timestamp) (op : Operation σ) : b.apply (.ask i now op) = b := by
  obtain ⟨-, -, hsame⟩ :=
    Operation.perform_of_stopped (x := m.session b.broker b.state) hstopped now op
  obtain ⟨hlt, rfl⟩ := List.getElem?_eq_some_iff.mp hm
  simp only [apply, hm, hsame, Member.after_of_stopped hstopped]
  rw [List.set_getElem_self]
  rfl

/-- **One action** leaves a stopped member as it is, but for the calls that are down. -/
theorem getElem?_apply_of_stopped (hm : b.members[i]? = some m)
    (hstopped : m.client.stopped = true) (action : Action σ) :
    (b.apply action).members[i]? = some m ∨
      ∃ outage, (b.apply action).members[i]? = some (m.withOutage outage) := by
  rcases getElem?_apply hm action with ⟨now, op, rfl, -⟩ | ⟨outage, -, hdown⟩ | ⟨-, hsame⟩
  · rw [apply_ask_of_stopped hm hstopped]
    exact .inl hm
  · exact .inr ⟨outage, hdown⟩
  · exact .inl hsame

/-- A member that has stopped stays as it is, but for the calls that are down. -/
theorem getElem?_run_of_stopped (hm : b.members[i]? = some m) (hstopped : m.client.stopped = true)
    (actions : List (Action σ)) :
    (b.run actions).members[i]? = some m ∨
      ∃ outage, (b.run actions).members[i]? = some (m.withOutage outage) := by
  induction actions generalizing b m with
  | nil => exact .inl hm
  | cons action rest ih =>
    rcases getElem?_apply_of_stopped hm hstopped action with hsame | ⟨outage, hdown⟩
    · exact ih hsame hstopped
    · refine .inr ?_
      rcases ih hdown hstopped with hsame | hlater
      · exact ⟨outage, hsame⟩
      · exact hlater

/-- **A stopped member is inert**: it refuses every operation without attempting anything, and a
bus goes on as if nobody asked it for anything. -/
structure Inert (b : Bus σ) (i : Nat) (m : Member σ) : Prop where
  member : b.members[i]? = some m
  refuses : ∀ (now : Timestamp) (op : Operation σ), op.answer now (m.session b.broker b.state) =
    if op.isStop then .ok 0 else .error .stopped
  idle : ∀ (now : Timestamp) (op : Operation σ), op.attempts now (m.session b.broker b.state) = [] ∧
    op.perform now (m.session b.broker b.state) = m.session b.broker b.state
  spares : ∀ (now : Timestamp) (op : Operation σ), b.apply (.ask i now op) = b
  runs : ∀ more : List (Action σ), b.run more = b.run (more.filter fun action => !action.asks i)

theorem run_filter_of_stopped (hm : b.members[i]? = some m) (hstopped : m.client.stopped = true)
    (more : List (Action σ)) : b.run more = b.run (more.filter fun action => !action.asks i) := by
  induction more generalizing b m with
  | nil => rfl
  | cons action rest ih =>
    cases hasks : action.asks i with
    | true =>
      rw [List.filter_cons_of_neg (by simp [hasks])]
      cases action with
      | ask j now op =>
        obtain rfl : j = i := eq_of_beq hasks
        rw [← ih hm hstopped]
        exact congrArg (run · rest) (apply_ask_of_stopped hm hstopped now op)
      | _ => cases hasks
    | false =>
      rw [List.filter_cons_of_pos (by simp [hasks])]
      rcases getElem?_apply_of_stopped hm hstopped action with hsame | ⟨outage, hdown⟩
      · exact ih hsame hstopped
      · exact ih hdown hstopped

theorem inert_of_stopped (hm : b.members[i]? = some m) (hstopped : m.client.stopped = true) :
    b.Inert i m where
  member := hm
  refuses now op :=
    (Operation.perform_of_stopped (x := m.session b.broker b.state) hstopped now op).1
  idle now op :=
    (Operation.perform_of_stopped (x := m.session b.broker b.state) hstopped now op).2
  spares := apply_ask_of_stopped hm hstopped
  runs := run_filter_of_stopped hm hstopped

/-- A member that has stopped is inert from then on. -/
theorem exists_inert_run (hm : b.members[i]? = some m) (hstopped : m.client.stopped = true)
    (later : List (Action σ)) :
    ∃ m', (b.run later).Inert i m' ∧ m'.journal = m.journal ∧
      m'.client.connection.closed = m.client.connection.closed ∧
      m'.client.connection.positions = m.client.connection.positions := by
  rcases getElem?_run_of_stopped hm hstopped later with hsame | ⟨outage, hdown⟩
  · exact ⟨m, inert_of_stopped hsame hstopped, rfl, rfl, rfl⟩
  · exact ⟨m.withOutage outage, inert_of_stopped hdown hstopped, rfl, rfl, rfl⟩

/-- What stopping a member does: it changes nothing but the member. -/
theorem apply_stop (hm : b.members[i]? = some m) (now : Timestamp) :
    b.apply (.ask i now .stop) =
      { b with members := b.members.set i (m.after b.broker b.state now .stop) } := by
  have hsame : (m.session b.broker b.state).stop.2.state = b.state := by
    unfold Session.stop
    split
    · rfl
    · dsimp only
      split <;> rfl
  simp only [apply, hm, Operation.perform, Session.stop_broker, hsame]
  rfl

/-- A member that is asked to stop is inert from then on, and its connection is closed if it was
up. -/
theorem exists_inert_of_stop (hs : b.Sound) (hm : b.members[i]? = some m) (now : Timestamp)
    (later : List (Action σ)) :
    ∃ m', ((b.apply (.ask i now .stop)).run later).Inert i m' ∧ m'.journal = m.journal ∧
      (m.client.stopped = false → m.client.connection.outage = {} →
        Operation.stop.answer now (m.session b.broker b.state) = .ok 0 ∧
        m'.client.connection.closed = true ∧ m'.client.connection.positions = .empty) := by
  have hasked := getElem?_ask hm now .stop
  have hstopped := (m.session b.broker b.state).stop_stopped
  obtain ⟨m', hinert, hjournal, hclosed, hpositions⟩ := exists_inert_run hasked hstopped later
  refine ⟨m', hinert, hjournal.trans (List.append_nil _), fun hrun hout => ?_⟩
  have hw := (hs.member m (List.mem_of_getElem? hm)).wired
  have hup : (m.session b.broker b.state).Up := ⟨hrun, hw.opened hrun, hout⟩
  have hgone : (m.after b.broker b.state now .stop).client.connection.Closed :=
    Session.stop_closes hup
  refine ⟨?_, hclosed.trans hgone.closed, hpositions.trans hgone.positions⟩
  rw [Operation.answer, Session.stop_up hup]
  rfl

/-- **A stopped client is inert.**  Stopping a member, in any state that a bus has reached,
changes nothing but the member.  Whatever happens later, it refuses every operation with
nothing attempted and nothing changed, but for being stopped once more, and the bus goes on
as if nobody asked it for anything.  Its positions are gone if its connection was up.  A
member that joins a group later is handed everything from the committed offset on.  In the
same way a closed connection refuses every call but for being closed once more, and changes
nothing; a broker only receives what others append. -/
theorem run_stopped_inert (broker : Broker) (state : σ) (earlier : List (Action σ))
    (hm : (run { broker, state } earlier).members[i]? = some m) (now : Timestamp)
    (later : List (Action σ)) :
    let before := run { broker, state } earlier
    let halted := before.apply (.ask i now .stop)
    let b := halted.run later
    (halted.broker = before.broker ∧ halted.state = before.state ∧
      ∀ j ≠ i, halted.members[j]? = before.members[j]?) ∧
    (∃ m', b.Inert i m' ∧ m'.journal = m.journal ∧
      (m.client.stopped = false → m.client.connection.outage = {} →
        Operation.stop.answer now (m.session before.broker before.state) = .ok 0 ∧
        m'.client.connection.closed = true ∧ m'.client.connection.positions = .empty)) ∧
    (∀ identity provenance itinerary actions,
      (∀ action ∈ actions, Action.Lets b.members.length action) →
      ∃ n, (b.apply (.connect identity provenance itinerary)).Serves b.members.length
        identity.group actions n) ∧
    ∀ c c' : Connection, c.outage = {} → c.close = .ok c' → ∀ stored : Broker,
      (∀ next, c'.answer stored next = (if next.isClose then .ok () else .error .closed) ∧
        c'.call stored next = (c', next.late.foldl (fun b (a, p) => b.append a p) stored)) ∧
      ∀ requests, c'.calls stored requests =
        (c', (requests.flatMap Connection.Call.late).foldl (fun b (a, p) => b.append a p)
          stored) := by
  intro before halted b
  have hsound : before.Sound := run_sound (sound_of_no_members broker state) earlier
  have hhalted : halted.Sound := (before.step_apply (.ask i now .stop)).sound hsound
  have hstop : halted = { before with
      members := before.members.set i (m.after before.broker before.state now .stop) } :=
    apply_stop hm now
  refine ⟨?_, ?_, ?_, ?_⟩
  · rw [hstop]
    exact ⟨rfl, rfl, fun j hj => List.getElem?_set_ne hj.symm⟩
  · exact exists_inert_of_stop hsound hm now later
  · exact fun identity provenance itinerary actions hlets =>
      newcomer_serves (run_sound hhalted later) identity provenance itinerary hlets
  · intro c c' hup hclose stored
    have hclosed := Connection.closed_of_close hup hclose
    exact ⟨hclosed.call stored, hclosed.calls stored⟩

/-- A member reads a record and stops without a commit; another one of its group is handed the
record again. -/
theorem run_stopped_inert_uncommitted :
    let now : Timestamp := ⟨2024, 1, 1, 0, 0, 0, 0⟩
    let text := "\x7b\"created_at\":\"2024-01-01T00:00:00Z\"\x7d"
    let note (name : String) : Callback (List String) Value Value := fun _ _ outbox state =>
      (.done, outbox, state ++ [name])
    let identity (client : String) : Identity := { url := "memory://b", group := "g", client }
    let provenance : Provenance := { plugin := "p", version := "1", host := "h" }
    let itinerary : Itinerary := ⟨id, fun _ => .refl _⟩
    let before := run { state := [] } [
      .append "t-NORMAL" text,
      .connect (identity "g-1") provenance itinerary,
      .ask 0 now (.subscribe "t" (note "first")),
      .ask 0 now .poll]
    let b := before.apply (.ask 0 now .stop)
    let serving : List (Action (List String)) := [
      .ask 1 now (.subscribe "t" (note "second")),
      .ask 1 now .poll,
      .ask 1 now .poll]
    (∃ m, before.members[0]? = some m ∧ m.client.stopped = false ∧ m.journal ≠ [] ∧
      ∃ m', b.Inert 0 m' ∧ m'.journal = m.journal) ∧
    (∃ n, (b.apply (.connect (identity "g-2") provenance itinerary)).Serves 1 "g" serving n ∧
      attemptsAt "t-NORMAL" n.journal = [⟨⟨"t-NORMAL", 0, text⟩, true⟩]) ∧
    ((b.apply (.connect (identity "g-2") provenance itinerary)).run serving).state =
      ["first", "second"] := by
  intro now text note identity provenance itinerary before b serving
  obtain ⟨m, hm, hrun, hjournal⟩ : ∃ m, before.members[0]? = some m ∧ m.client.stopped = false ∧
      m.journal ≠ [] := ⟨_, rfl, by decide +kernel, by decide +kernel⟩
  obtain ⟨-, ⟨m', hinert, hsame, -⟩, hserves, -⟩ := run_stopped_inert {} [] _ hm now []
  have hlets : ∀ action ∈ serving, Action.Lets 1 action := by
    simp [serving, Action.Lets, Operation.isStop]
  obtain ⟨n, hn⟩ := hserves (identity "g-2") provenance itinerary serving hlets
  have hhanded : (((b.apply (.connect (identity "g-2") provenance itinerary)).run
      serving).members[1]?.map fun n => attemptsAt "t-NORMAL" n.journal) =
        some [⟨⟨"t-NORMAL", 0, text⟩, true⟩] := by
    decide +kernel
  refine ⟨⟨m, hm, hrun, hjournal, m', hinert, hsame⟩, ⟨n, hn, ?_⟩, by decide +kernel⟩
  have hmember : ((b.apply (.connect (identity "g-2") provenance itinerary)).run
    serving).members[1]? = some n := hn.member
  rw [hmember] at hhanded
  exact Option.some.inj hhanded

end Bus
end LaneBus
