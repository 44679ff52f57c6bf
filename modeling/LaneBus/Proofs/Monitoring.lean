import LaneBus.Proofs.Delivering

/-! # Monitors

A monitor is called for those records of an error lane that can be read, say a failure and have
no payload (`Call.of?`).  Whatever else stands in the log, and however
the callback ends, a pass goes on to the next record and sends nothing
(`Session.dispatchAll_monitored`), so **a client of monitors alone never feeds the bus**, and its
passes only fail if its connection does.

Over a whole run (`Bus.run_monitors`) the callbacks are called once for each such record in the part
of a log that the client has read, in the order of the log, and for nothing else.
-/
namespace LaneBus

open Json

variable {σ : Type}

/-! ## Calls -/

/-- A call of a monitor: the record that it is made for, and what the callback is given. -/
structure Call where
  record : Record
  envelope : Envelope Value Value

/-- The text says a failure and has no payload. -/
def SaysFailure (text : String) (e : Envelope Value Value) : Prop :=
  decode (Envelope Value Value) text = .ok e ∧ e.err.isSome ∧ e.payload = none

/-- Whether the text of a record says a failure and has no payload. -/
def Record.saysFailure (r : Record) : Bool :=
  match decode (Envelope Value Value) r.payload with
  | .error _ => false
  | .ok e => e.err.isSome && e.payload.isNone

/-- The call that is made for a record, if it says a failure.  The time of consumption is set. -/
def Call.of? (now : Timestamp) (r : Record) : Option Call :=
  match decode (Envelope Value Value) r.payload with
  | .error _ => none
  | .ok e =>
    if e.err.isSome && e.payload.isNone then some { record := r, envelope := e.consume now }
    else none

/-- The calls that are made for some records. -/
def calls (now : Timestamp) (records : List Record) : List Call :=
  records.filterMap (Call.of? now)

theorem Call.of?_eq_some_iff {now : Timestamp} {r : Record} {call : Call} :
    Call.of? now r = some call ↔
      ∃ e, SaysFailure r.payload e ∧ call = { record := r, envelope := e.consume now } := by
  unfold Call.of? SaysFailure
  cases decode (Envelope Value Value) r.payload with
  | error reason => simp
  | ok e =>
    simp only [Option.ite_none_right_eq_some, Bool.and_eq_true, Option.isNone_iff_eq_none,
      Option.some.injEq, Except.ok.injEq]
    constructor
    · rintro ⟨hreport, rfl⟩
      exact ⟨e, ⟨rfl, hreport⟩, rfl⟩
    · rintro ⟨e, ⟨rfl, hreport⟩, rfl⟩
      exact ⟨hreport, rfl⟩

theorem calls_records (now : Timestamp) (records : List Record) :
    (calls now records).map Call.record = records.filter Record.saysFailure := by
  induction records with
  | nil => rfl
  | cons r rest ih =>
    unfold calls at ih ⊢
    rw [List.filterMap_cons, List.filter_cons, ← ih]
    cases hread : decode (Envelope Value Value) r.payload with
    | error reason => simp [Call.of?, Record.saysFailure, hread]
    | ok e => cases hreport : e.err.isSome && e.payload.isNone <;>
        simp [Call.of?, Record.saysFailure, hread, hreport]

/-- **What a monitor makes of a record**: it queues nothing and reports nothing, and its callback
is called for what says a failure and for nothing else. -/
theorem Handler.monitor_reaction (callback : MonitorCallback σ) (r : Record) (lane : Lane)
    (o : Outbox) (s : σ) :
    (Handler.monitor callback r lane o s).outbox = o ∧
    (∀ f text, (Handler.monitor callback r lane o s).delivery ≠ .rejected f text) ∧
    (Handler.monitor callback r lane o s).state =
      match Call.of? o.now r with
      | none => s
      | some call => (callback call.envelope s).2.2 := by
  unfold Handler.monitor Call.of?
  cases decode (Envelope Value Value) r.payload with
  | error reason => exact ⟨rfl, fun _ _ h => (by cases h), rfl⟩
  | ok e =>
    have hfits : (e.consume o.now).fits .error = (e.err.isSome && e.payload.isNone) := rfl
    dsimp only
    rw [hfits]
    cases e.err.isSome && e.payload.isNone with
    | false => exact ⟨rfl, fun _ _ h => (by cases h), rfl⟩
    | true =>
      rcases hcall : callback (e.consume o.now) s with ⟨outcome, events, after⟩
      rw [if_pos rfl]
      dsimp only
      rw [hcall]
      cases outcome <;> exact ⟨rfl, fun _ _ h => (by cases h), rfl⟩

/-! ## Passes of monitors -/

/-- All handlers of a client are monitors. -/
def Client.OnlyMonitors (c : Client σ) : Prop :=
  ∀ s ∈ c.subscriptions, ∃ callback, s.handler = .monitor callback

namespace Session

variable {x y : Session σ} {now : Timestamp} {waited : Bool}

/-- A monitor never fails and sends nothing. -/
theorem dispatch_monitored (h : x.client.OnlyMonitors) (now : Timestamp) (r : Record) :
    (x.dispatch now r).1 = .ok () ∧ (x.dispatch now r).2.broker = x.broker := by
  unfold dispatch
  split
  · exact ⟨rfl, rfl⟩
  · rename_i s lane hreceiver
    obtain ⟨callback, hs⟩ := h s (Client.mem_subscriptions_of_receiver? hreceiver)
    obtain ⟨houtbox, hdelivery, -⟩ := Handler.monitor_reaction callback r lane
      { provenance := x.client.provenance, now } x.state
    rw [hs]
    dsimp only
    split
    · rw [houtbox]
      exact ⟨rfl, rfl⟩
    · rename_i f text hrejected
      exact absurd hrejected (hdelivery f text)
    · exact ⟨rfl, rfl⟩

theorem dispatchAll_monitored (h : x.client.OnlyMonitors) (now : Timestamp)
    (records : List Record) :
    (x.dispatchAll now records).1 = .ok () ∧
      (x.dispatchAll now records).2.broker = x.broker ∧
      (x.dispatchAll now records).2.client = x.client := by
  induction records generalizing x with
  | nil => exact ⟨rfl, rfl, rfl⟩
  | cons r rest ih =>
    obtain ⟨hok, hbroker⟩ := dispatch_monitored h now r
    have hclient := (x.dispatch_steady now r).client
    unfold dispatchAll
    cases hd : x.dispatch now r with
    | mk outcome y =>
      rw [hd] at hok hbroker hclient
      obtain rfl : outcome = .ok () := hok
      change y.broker = x.broker at hbroker
      change y.client = x.client at hclient
      obtain ⟨hall, hsame, hsteady⟩ := ih (x := y) (hclient ▸ h)
      exact ⟨hall, hsame.trans hbroker, hsteady.trans hclient⟩

/-- **A pass of monitors** fails only if it cannot gather records, completes all that it gathers,
and leaves logs and commits alone. -/
theorem pass_monitored (hw : x.client.Wired) (h : x.client.OnlyMonitors) (now : Timestamp)
    (waited : Bool) :
    (∀ records y, x.gather now waited = (.ok records, y) →
      (x.pass now waited).1 = .ok records.length ∧ (x.pass now waited).2.client = y.client) ∧
    (∀ t ∈ x.passAttempts now waited, t.completed = true) ∧
    (x.pass now waited).2.broker.logs = x.broker.logs ∧
    (x.pass now waited).2.broker.committed = x.broker.committed := by
  cases hgather : x.gather now waited with
  | mk outcome y =>
    have hbroker : y.broker.logs = x.broker.logs ∧ y.broker.committed = x.broker.committed := by
      rcases gather_cases hw hgather with ⟨-, rfl⟩ | ⟨-, htook⟩
      · exact ⟨rfl, rfl⟩
      · exact ⟨htook.logs, htook.committed⟩
    cases outcome with
    | error e =>
      rw [pass, passAttempts, hgather]
      exact ⟨fun _ _ hok => (by cases hok), fun t ht => (by cases ht), hbroker⟩
    | ok records =>
      have hy : y.client.OnlyMonitors := fun s hs =>
        h s ((gather_wiring hw hgather).subscriptions ▸ hs)
      obtain ⟨hall, hsame, hclient⟩ := dispatchAll_monitored hy now records
      have hpass : x.pass now waited = (.ok records.length, (y.dispatchAll now records).2) := by
        rw [pass, hgather]
        dsimp only
        split
        · rename_i e z hz
          rw [hz] at hall
          cases hall
        · rename_i z hz
          rw [hz]
      refine ⟨fun records' y' hok => ?_, (pass_ok hw (by rw [hpass])).2, ?_⟩
      · cases hok
        rw [hpass]
        exact ⟨rfl, hclient⟩
      · rw [hpass, hsame]
        exact hbroker

/-- What a pass of monitors hands out, call by call. -/
theorem pass_calls {callbacks : String → MonitorCallback σ} (hw : x.client.Wired)
    (h : ∀ a s lane, x.client.receiver? a = some (s, lane) → s.handler = .monitor (callbacks a))
    (now : Timestamp) (waited : Bool) :
    (x.pass now waited).2.state =
      (calls now ((x.passAttempts now waited).map Attempt.record)).foldl
        (fun s call => (callbacks call.record.address call.envelope s).2.2) x.state := by
  rw [pass_state hw now waited]
  have howned := passAttempts_owned hw now waited
  generalize (x.passAttempts now waited).map Attempt.record = records at howned
  generalize x.state = state
  induction records generalizing state with
  | nil => rfl
  | cons r rest ih =>
    obtain ⟨hr, hrest⟩ := List.forall_mem_cons.mp howned
    obtain ⟨⟨s, lane⟩, hreceiver⟩ := Option.isSome_iff_exists.mp hr
    obtain ⟨-, -, hstate⟩ := Handler.monitor_reaction (callbacks r.address) r lane
      (x.emptyOutbox now) state
    have hnow : (x.emptyOutbox now).now = now := rfl
    rw [hnow] at hstate
    rw [List.foldl_cons, ih hrest, hand, hreceiver]
    simp only [h _ _ _ hreceiver, hstate, calls, List.filterMap_cons]
    cases hcall : Call.of? now r with
    | none => rfl
    | some call =>
      obtain ⟨e, -, rfl⟩ := Call.of?_eq_some_iff.mp hcall
      rfl

end Session

/-! ## What is registered as a monitor -/

theorem Operation.registration_monitor {op : Operation σ} {topic : String} {handler : Handler σ}
    (h : op.registration? = some (topic, .monitor, handler)) :
    ∃ callback, handler = .monitor callback := by
  cases op with
  | subscribeErrors t callback =>
    cases h
    exact ⟨callback, rfl⟩
  | _ => cases h

/-- Whatever was registered to monitor a topic has a monitor for its handler. -/
def Ledger.Typed (l : Ledger σ) : Prop :=
  ∀ s ∈ l.registered, s.kind = .monitor → ∃ callback, s.handler = .monitor callback

theorem Ledger.Typed.after {l : Ledger σ} (h : l.Typed) (x : Session σ) (op : Operation σ) :
    (l.after x op).Typed := by
  intro s hs hkind
  rcases List.mem_append.mp hs with hs | hs
  · exact h s hs hkind
  · unfold Operation.registers at hs
    split at hs
    · cases hs
    · split at hs
      · cases hs
      · rename_i topic kind handler hop
        obtain rfl := List.mem_singleton.mp hs
        obtain rfl : kind = .monitor := hkind
        exact op.registration_monitor hop

/-- The ledger has nothing but monitors. -/
def Ledger.OnlyMonitors (l : Ledger σ) : Prop := ∀ s ∈ l.registered, s.kind = .monitor

/-- A client that has registered nothing but monitors has no other handlers. -/
theorem Client.Accords.onlyMonitors {c : Client σ} {l : Ledger σ} (h : c.Accords l)
    (htyped : l.Typed) (hl : l.OnlyMonitors) : c.OnlyMonitors := by
  intro s hs
  obtain ⟨older, newer, hregistered, -⟩ := (h.latest s).mp hs
  have hmem : s ∈ l.registered := by rw [hregistered]; simp
  exact htyped s hmem (hl s hmem)

/-- A client whose subscriptions are all monitors has registered nothing else. -/
theorem Client.Accords.ledger_onlyMonitors {c : Client σ} {l : Ledger σ} (h : c.Accords l)
    (hc : ∀ s ∈ c.subscriptions, s.kind = .monitor) : l.OnlyMonitors := by
  intro s hs
  obtain ⟨latest, hlatest, hkey⟩ := exists_latest.mp (List.mem_map_of_mem hs)
  have hkind := hc latest ((h.latest latest).mpr hlatest)
  rw [← (Prod.mk.inj hkey).2]
  exact hkind

/-- The callbacks of a client of monitors, by the addresses that they are called for. -/
theorem Client.OnlyMonitors.exists_callbacks {c : Client σ} (h : c.OnlyMonitors) :
    ∃ callbacks : String → MonitorCallback σ, ∀ a s lane,
      c.receiver? a = some (s, lane) → s.handler = .monitor (callbacks a) := by
  have hall (a : String) : ∃ callback : MonitorCallback σ, ∀ s lane,
      c.receiver? a = some (s, lane) → s.handler = .monitor callback := by
    cases hreceiver : c.receiver? a with
    | none => exact ⟨fun _ state => (.done, [], state), fun s lane h => (by cases h)⟩
    | some found =>
      obtain ⟨s, lane⟩ := found
      obtain ⟨callback, hs⟩ := h s (mem_subscriptions_of_receiver? hreceiver)
      refine ⟨callback, fun s' lane' hsame => ?_⟩
      cases hsame
      exact hs
  exact Classical.skolem.mp hall

/-! ## Runs -/

/-- The calls that an operation makes if it is asked of a client of monitors. -/
def Operation.calls (now : Timestamp) (x : Session σ) (op : Operation σ) : List Call :=
  LaneBus.calls now ((op.attempts now x).map Attempt.record)

namespace Bus

/-- The calls that the monitors of a member have been given during a run. -/
def heard (b : Bus σ) (i : Nat) (actions : List (Action σ)) : List Call :=
  b.history (fun calls x now op => calls ++ op.calls now x) i [] actions

/-- The calls are made for what has been attempted and says a failure. -/
theorem heard_kept : Kept (fun calls (x : Session σ) now op => calls ++ op.calls now x) []
    (fun m calls => calls.map Call.record =
        (m.journal.map Attempt.record).filter Record.saysFailure ∧
      ∀ call ∈ calls, call.envelope.consumedAt.isSome ∧
        ∃ e now, SaysFailure call.record.payload e ∧ call.envelope = e.consume now) where
  connected _ _ _ _ _ := ⟨rfl, fun call hcall => (by cases hcall)⟩
  down _ _ _ h := h
  asked m calls b state now op _ h := by
    refine ⟨?_, fun call hcall => ?_⟩
    · rw [List.map_append, h.1, Operation.calls, calls_records, Member.after, List.map_append,
        List.filter_append]
    · rcases List.mem_append.mp hcall with hcall | hcall
      · exact h.2 call hcall
      · obtain ⟨r, -, hr⟩ := List.mem_filterMap.mp hcall
        obtain ⟨e, hsays, rfl⟩ := Call.of?_eq_some_iff.mp hr
        exact ⟨rfl, e, now, hsays, rfl⟩

/-- A member that has registered nothing but monitors has completed all that it attempted. -/
theorem completed_kept : Kept (fun (l : Ledger σ) x _ op => l.after x op) {}
    (fun m l => m.client.Accords l ∧ l.Typed ∧
      (l.OnlyMonitors → ∀ t ∈ m.journal, t.completed = true)) where
  connected c hs hr hu hp :=
    ⟨accords_kept.connected c hs hr hu hp, fun s hs => (by cases hs), fun _ t ht => (by cases ht)⟩
  down m l outage h := ⟨accords_kept.down m l outage h.1, h.2⟩
  asked m l b state now op hsound h := by
    obtain ⟨haccords, htyped, hcompleted⟩ := h
    refine ⟨accords_kept.asked m l b state now op hsound haccords, htyped.after _ op,
      fun hl t ht => ?_⟩
    have hold : l.OnlyMonitors := fun s hs => hl s (List.mem_append_left _ hs)
    have honly := haccords.onlyMonitors htyped hold
    rcases List.mem_append.mp ht with ht | ht
    · exact hcompleted hold t ht
    · cases op with
      | poll => exact (Session.pass_monitored hsound.wired honly now false).2.1 t ht
      | resume => exact (Session.pass_monitored hsound.wired honly now true).2.1 t ht
      | _ => cases ht

end Bus

/-- **The passes of a member that monitors**, whose callbacks are known by the addresses that they
are called for. -/
structure Member.Monitors (m : Member σ) (b : Broker) (state : σ)
    (callbacks : String → MonitorCallback σ) : Prop where
  /-- Nothing is appended to a log or committed. -/
  quiet : ∀ now waited, ((m.session b state).pass now waited).2.broker.logs = b.logs ∧
    ((m.session b state).pass now waited).2.broker.committed = b.committed
  /-- On a connection that is up no pass fails.  It counts the records that come next at their
  addresses, whatever they say, and takes none only when there is nothing left to read. -/
  passes : (m.session b state).Up → ∀ now waited, ∃ records,
    ((m.session b state).pass now waited).1 = .ok records.length ∧
    (m.session b state).passAttempts now waited = records.map (fun r => ⟨r, true⟩) ∧
    (∀ r ∈ records, (m.client.routes.get? r.address).isSome ∧ b.Holds r) ∧
    Advance (m.client.synced b).connection.positions records
      ((m.session b state).pass now waited).2.client.connection.positions ∧
    (records = [] → (m.session b state).listening.Drained)
  /-- The callbacks are called for what says a failure among the records, in their order. -/
  called : ∀ now waited, ((m.session b state).pass now waited).2.state =
    (calls now (((m.session b state).passAttempts now waited).map Attempt.record)).foldl
      (fun s call => (callbacks call.record.address call.envelope s).2.2) state

/-- Attempts that have all completed their records are known by the records. -/
theorem eq_map_of_completed {ts : List Attempt} (h : ∀ t ∈ ts, t.completed = true) :
    ts = (ts.map Attempt.record).map fun r => ⟨r, true⟩ := by
  rw [List.map_map]
  refine ((List.map_congr_left fun t ht => ?_).trans (List.map_id ts)).symm
  rw [Function.comp_apply, ← h t ht]
  rfl

theorem Client.OnlyMonitors.monitors {m : Member σ} (h : m.client.OnlyMonitors)
    (hw : m.client.Wired) {callbacks : String → MonitorCallback σ}
    (hcallbacks : ∀ a s lane, m.client.receiver? a = some (s, lane) →
      s.handler = .monitor (callbacks a)) (b : Broker) (state : σ) :
    m.Monitors b state callbacks := by
  refine ⟨fun now waited => ?_, fun hup now waited => ?_,
    fun now waited => Session.pass_calls (x := m.session b state) hw hcallbacks now waited⟩
  · exact (Session.pass_monitored (x := m.session b state) hw h now waited).2.2
  · obtain ⟨records, y, hgather, htook, hdrained⟩ := Session.gather_up hw hup now waited
    obtain ⟨hpass, hcompleted, -⟩ :=
      Session.pass_monitored (x := m.session b state) hw h now waited
    obtain ⟨hok, hclient⟩ := hpass records y hgather
    have hrecords := (Session.attempted_records hgather).2 _ hok hw
    refine ⟨records, hok, ?_, fun r hr => ?_, ?_, hdrained⟩
    · rw [← hrecords]
      exact eq_map_of_completed hcompleted
    · obtain ⟨hrouted, hholds⟩ := htook.known r hr
      have hlog : y.broker.log r.address = b.log r.address := Broker.log_of_logs htook.logs _
      exact ⟨hrouted, Broker.holds_of_prefix (hlog ▸ List.prefix_rfl) hholds⟩
    · rw [hclient]
      exact htook.advance

/-- A member that has completed all that it attempted at an address has attempted what comes first
there, from its start on. -/
theorem Member.Sound.attempted_eq_take {m : Member σ} {b : Broker} (h : m.Sound)
    (hholds : ∀ t ∈ m.journal, b.Holds t.record) (hcompleted : ∀ t ∈ m.journal, t.completed = true)
    {a : String} {start : Nat} (hstart : m.started a = some start) :
    (attemptsAt a m.journal).map Attempt.record =
        (b.recordsFrom a start).take (attemptsAt a m.journal).length ∧
      (m.client.stopped = false →
        m.position? a = some (start + (attemptsAt a m.journal).length)) := by
  have hall : ∀ t ∈ attemptsAt a m.journal, t.completed = true := fun t ht =>
    hcompleted t (List.mem_filter.mp ht).1
  have hcount : completedCount (attemptsAt a m.journal) = (attemptsAt a m.journal).length :=
    List.countP_eq_length.mpr hall
  constructor
  · refine Broker.eq_take_recordsFrom (fun r hr => ?_) ?_
    · obtain ⟨t, ht, rfl⟩ := List.mem_map.mp hr
      obtain ⟨hmem, ha⟩ := List.mem_filter.mp ht
      exact ⟨of_decide_eq_true ha, hholds t hmem⟩
    · have hoffsets := (h.inOrder hstart).offsets
      rw [List.filter_eq_self.mpr hall, hcount] at hoffsets
      rw [List.map_map, ← hoffsets]
      rfl
  · intro hrun
    cases h.standing a with
    | unread hnone _ _ => rw [hstart] at hnone; cases hnone
    | reading start' hstart' hposition _ =>
      obtain rfl : start = start' := Option.some.inj (hstart.symm.trans hstart')
      rw [hposition, hcount]
    | closed _ _ _ _ hstopped => rw [hrun] at hstopped; cases hstopped

namespace Bus

/-- **Monitors cannot feed a bus, and hear exactly what says a failure.**  Whatever stands in the
logs and however the callbacks end, the passes of a member whose subscriptions are all monitors
append nothing and fail only with their connection, and over the whole run the callbacks were
called for those records that say a failure among the ones from where the member started to read
an address up to its position, once each and in the order of the log. -/
theorem run_monitors (broker : Broker) (state : σ) (actions : List (Action σ)) {i : Nat}
    {m : Member σ} (hm : (run { broker, state } actions).members[i]? = some m)
    (hmonitors : ∀ s ∈ m.client.subscriptions, s.kind = .monitor) :
    ∃ callbacks : String → MonitorCallback σ,
      (∀ s, Latest (ledger { broker, state } i actions).registered s →
        s.handler = .monitor (callbacks (Lane.error.address s.topic))) ∧
      m.Monitors (run { broker, state } actions).broker (run { broker, state } actions).state
        callbacks ∧
      (∀ call ∈ heard { broker, state } i actions, call.envelope.consumedAt.isSome ∧
        ∃ e now, SaysFailure call.record.payload e ∧ call.envelope = e.consume now) ∧
      ∀ a, match m.started a with
        | none => ∀ call ∈ heard { broker, state } i actions, call.record.address ≠ a
        | some start => ∃ n,
          recordsAt a ((heard { broker, state } i actions).map Call.record) =
            (((run { broker, state } actions).broker.recordsFrom a start).take n).filter
              Record.saysFailure ∧
          (m.client.stopped = false → m.position? a = some (start + n)) := by
  obtain ⟨haccords, htyped, hcompleted⟩ := run_kept completed_kept broker state actions hm
  obtain ⟨hheard, hcalls⟩ : (heard { broker, state } i actions).map Call.record = _ ∧ _ :=
    run_kept heard_kept broker state actions hm
  have hl := haccords.ledger_onlyMonitors hmonitors
  have honly := haccords.onlyMonitors htyped hl
  have hs := run_sound (sound_of_no_members broker state) actions
  have hmem := List.mem_of_getElem? hm
  have hsound := hs.member m hmem
  obtain ⟨callbacks, hcallbacks⟩ := honly.exists_callbacks
  refine ⟨callbacks, fun s hlatest => ?_, honly.monitors hsound.wired hcallbacks _ _, hcalls,
    fun a => ?_⟩
  · have hregistered : s ∈ (ledger { broker, state } i actions).registered := by
      obtain ⟨older, newer, heq, -⟩ := hlatest
      rw [heq]
      simp
    have howns : s.Owns .error (Lane.error.address s.topic) :=
      ⟨SubscriptionKind.mem_lanes_iff.mpr (hl s hregistered).symm, rfl⟩
    refine hcallbacks _ s .error ?_
    rw [haccords.receiver?]
    exact owner?_eq_some_iff.mpr ⟨hlatest, howns⟩
  · have hrecords : recordsAt a ((heard { broker, state } i actions).map Call.record) =
        ((attemptsAt a m.journal).map Attempt.record).filter Record.saysFailure := by
      have hat : (attemptsAt a m.journal).map Attempt.record =
          recordsAt a (m.journal.map Attempt.record) := by
        rw [recordsAt, List.filter_map]
        rfl
      rw [hheard, hat, recordsAt, recordsAt, List.filter_filter, List.filter_filter]
      simp only [Bool.and_comm]
    cases hstart : m.started a with
    | none =>
      rw [hsound.attemptsAt_eq_nil hstart] at hrecords
      intro call hcall ha
      have hmem : call.record ∈ recordsAt a ((heard { broker, state } i actions).map Call.record) :=
        List.mem_filter.mpr ⟨List.mem_map_of_mem hcall, decide_eq_true ha⟩
      rw [hrecords] at hmem
      cases hmem
    | some start =>
      obtain ⟨htake, hposition⟩ :=
        hsound.attempted_eq_take (hs.holds m hmem) (hcompleted hl) hstart
      exact ⟨(attemptsAt a m.journal).length, by rw [hrecords, htake], hposition⟩

/-- A monitor fails on a report, skips a text that cannot be read and one with a payload that is
null, and hears the report behind them. -/
theorem run_monitors_failing :
    let now : Timestamp := ⟨2024, 1, 1, 0, 0, 0, 0⟩
    let report (id : String) : String := "\x7b\"created_at\":\"2024-01-01T00:00:00Z\"," ++
      "\"err\":\x7b\"error\":\"" ++ id ++ "\",\"msg\":\"\",\"stacktrace\":\"\"\x7d"
    let actions : List (Action (List String)) := [
      .connect { url := "memory://b", group := "g", client := "c" }
        { plugin := "p", version := "1", host := "h" } ⟨id, fun _ => .refl _⟩,
      .ask 0 now (.subscribeErrors "in" fun e state =>
        (.failed { kind := "k", message := "m" }, [],
          state ++ [(e.err.map ErrorDetails.kind).getD ""])),
      .append "in-ERROR" (report "first" ++ "\x7d"),
      .append "in-ERROR" "?",
      .append "in-ERROR" (report "second" ++ ",\"payload\":null\x7d"),
      .append "in-ERROR" (report "third" ++ "\x7d"),
      .ask 0 now .poll]
    let b := run { state := [] } actions
    (∃ m, b.members[0]? = some m ∧ (∀ s ∈ m.client.subscriptions, s.kind = .monitor) ∧
      m.position? "in-ERROR" = some 4 ∧
      ∃ callbacks, m.Monitors b.broker b.state callbacks) ∧
    b.state = ["first", "third"] := by
  intro now report actions b
  obtain ⟨m, hm, hmonitors, hposition⟩ : ∃ m, b.members[0]? = some m ∧
      (∀ s ∈ m.client.subscriptions, s.kind = .monitor) ∧
      m.position? "in-ERROR" = some 4 := ⟨_, rfl, by decide +kernel, by decide +kernel⟩
  obtain ⟨callbacks, -, h, -⟩ := run_monitors {} [] actions hm hmonitors
  exact ⟨⟨m, hm, hmonitors, hposition, callbacks, h⟩, by decide +kernel⟩

end Bus
end LaneBus
