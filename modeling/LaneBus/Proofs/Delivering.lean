import LaneBus.Proofs.Handling
import LaneBus.Proofs.Keeping
import LaneBus.Proofs.Routing
import LaneBus.Proofs.Skipping
import LaneBus.Proofs.Urgency

/-! # Records reach their owners

What callbacks keep shows what they were handed, since a callback can keep all that it sees.
After a pass it is what comes of handing the attempted records, in order, each to the owner of
its address (`Session.pass_state`), and no pass fails because an address is not read
(`Session.pass_reads`).

Together with the accord of a client and its ledger, **every record reaches the callback that
was registered last** for the topic and kind that own its address, and no other
(`Bus.run_routes`), also when the record was read before that callback was there.
-/
namespace LaneBus

open Json

variable {σ : Type}

/-- What is kept after a record was handed to its owner. -/
def hand (owner? : String → Option (Subscription σ × Lane)) (o : Outbox) (state : σ)
    (r : Record) : σ :=
  match owner? r.address with
  | none => state
  | some (s, lane) => (s.handler r lane o state).state

/-- The failure is not about an address that the connection does not read. -/
def BusError.Reads (e : BusError) : Prop := ∀ a, e ≠ .transport (.notSubscribed a)

namespace Session

variable {x y : Session σ} {now : Timestamp} {waited : Bool} {e : BusError}

/-! ## What a pass hands out -/

theorem dispatchAll_state {records : List Record}
    (howned : ∀ r ∈ records, (x.client.receiver? r.address).isSome) (now : Timestamp) :
    (x.dispatchAll now records).2.state =
      ((x.attempts now records).map Attempt.record).foldl
        (hand x.client.receiver? (x.emptyOutbox now)) x.state := by
  induction records generalizing x with
  | nil => rfl
  | cons r rest ih =>
    obtain ⟨hr, hrest⟩ := List.forall_mem_cons.mp howned
    obtain ⟨⟨s, lane⟩, hreceiver⟩ := Option.isSome_iff_exists.mp hr
    have hok : (x.dispatch now r).1 = .ok () ↔ x.completes now r = true := dispatch_eq_ok hr
    have hclient := (x.dispatch_steady now r).client
    have hstate : (x.dispatch now r).2.state =
        hand x.client.receiver? (x.emptyOutbox now) x.state r := by
      rw [dispatch_state hreceiver now, hand, hreceiver]
    unfold dispatchAll attempts
    cases hd : x.dispatch now r with
    | mk outcome y =>
      rw [hd] at hok hclient hstate
      cases outcome with
      | error e =>
        have hc : x.completes now r = false := by simpa using mt hok.mpr
        simp only [hc, Bool.false_eq_true, if_false, rewind, seekAll_state, List.map_cons,
          List.map_nil, List.foldl_cons, List.foldl_nil]
        exact hstate
      | ok u =>
        change y.client = x.client at hclient
        have hsame : y.emptyOutbox now = x.emptyOutbox now := by
          rw [emptyOutbox, emptyOutbox, hclient]
        rw [if_pos (hok.mp rfl), List.map_cons, List.foldl_cons, ← hstate]
        dsimp only
        rw [ih fun r' hr' => by rw [hclient]; exact hrest r' hr', hsame, hclient]

/-- Every record that a pass takes has a subscription that reads its address. -/
theorem gather_owned (hw : x.client.Wired) {records : List Record}
    (h : x.gather now waited = (.ok records, y)) :
    ∀ r ∈ records, (x.client.receiver? r.address).isSome := by
  rcases gather_cases hw h with ⟨hnil, -⟩ | ⟨-, htook⟩
  · obtain rfl : records = [] := hnil
    intro r hr
    cases hr
  · exact fun r hr => hw.receiver (htook.known r hr).1

/-- **What a pass hands out**: the records that it attempts, in order, each to the subscription
that the client reads its address for. -/
theorem pass_state (hw : x.client.Wired) (now : Timestamp) (waited : Bool) :
    (x.pass now waited).2.state =
      ((x.passAttempts now waited).map Attempt.record).foldl
        (hand x.client.receiver? (x.emptyOutbox now)) x.state := by
  have hstate := x.gather_state now waited
  unfold pass passAttempts
  cases hgather : x.gather now waited with
  | mk outcome y =>
    rw [hgather] at hstate
    change y.state = x.state at hstate
    cases outcome with
    | error e => exact hstate
    | ok records =>
      have hwiring := gather_wiring hw hgather
      have hreceiver : y.client.receiver? = x.client.receiver? := funext hwiring.receiver?
      have hsame : y.emptyOutbox now = x.emptyOutbox now := by
        rw [emptyOutbox, emptyOutbox, hwiring.provenance]
      have howned : ∀ r ∈ records, (y.client.receiver? r.address).isSome := by
        rw [hreceiver]
        exact gather_owned hw hgather
      have hall := dispatchAll_state howned now
      rw [hstate, hreceiver, hsame] at hall
      dsimp only
      split
      · rename_i e z hz
        rw [hz] at hall
        exact hall
      · rename_i z hz
        rw [hz] at hall
        exact hall

/-- A pass attempts the records that it gathers, in order, and all of them when it goes
through. -/
theorem attempted_records {records : List Record}
    (hgather : x.gather now waited = (.ok records, y)) :
    (x.passAttempts now waited).map Attempt.record <+: records ∧
      ∀ n, (x.pass now waited).1 = .ok n → x.client.Wired →
        (x.passAttempts now waited).map Attempt.record = records := by
  have hfirst : (x.passAttempts now waited).map Attempt.record <+: records := by
    rw [passAttempts, hgather]
    exact y.attempts_prefix now records
  refine ⟨hfirst, fun n hok hw => hfirst.eq_of_length ?_⟩
  rw [List.length_map, (pass_ok hw hok).1]
  rw [pass, hgather] at hok
  dsimp only at hok
  split at hok
  · cases hok
  · exact (Except.ok.inj hok).symm

/-- Every record that a pass attempts has a subscription that reads its address. -/
theorem passAttempts_owned (hw : x.client.Wired) (now : Timestamp) (waited : Bool) :
    ∀ r ∈ (x.passAttempts now waited).map Attempt.record,
      (x.client.receiver? r.address).isSome := by
  intro r hr
  cases hgather : x.gather now waited with
  | mk outcome y =>
    cases outcome with
    | error e =>
      rw [passAttempts, hgather] at hr
      cases hr
    | ok records => exact gather_owned hw hgather r ((attempted_records hgather).1.subset hr)

/-! ## How a pass fails -/

theorem send_reads {r : Outgoing} (h : (x.send r).1 = .error e) : e.Reads := by
  unfold send at h
  split at h
  · rename_i refusal hsend
    obtain rfl := Except.error.inj h
    unfold Connection.send at hsend
    split at hsend
    · rename_i hrefused
      obtain rfl := Except.error.inj hsend
      exact fun a hsame => Connection.usable_error hrefused a (BusError.transport.inj hsame)
    · cases hsend
  · cases h

theorem sendAll_reads {rs : List Outgoing} (h : (x.sendAll rs).1 = .error e) : e.Reads := by
  induction rs generalizing x with
  | nil => cases h
  | cons r rest ih =>
    unfold sendAll at h
    split at h
    · exact ih h
    · exact send_reads h

theorem dispatch_reads {r : Record} (h : (x.dispatch now r).1 = .error e) : e.Reads := by
  unfold dispatch at h
  split at h
  · cases h
  · dsimp only at h
    split at h
    · exact sendAll_reads h
    · exact send_reads h
    · cases h

theorem dispatchAll_reads {records : List Record} (h : (x.dispatchAll now records).1 = .error e) :
    e.Reads := by
  induction records generalizing x with
  | nil => cases h
  | cons r rest ih =>
    unfold dispatchAll at h
    split at h
    · exact ih h
    · rename_i refusal z hdispatch
      obtain rfl := Except.error.inj h
      exact dispatch_reads (by rw [hdispatch])

theorem listen_reads (h : x.listen.1 = .error e) : e.Reads := by
  unfold listen sync at h
  split at h
  · obtain rfl := Except.error.inj h
    exact fun a hsame => by cases hsame
  · split at h
    · cases h
    · split at h
      · rename_i refusal hsubscribe
        obtain rfl := Except.error.inj h
        unfold Connection.subscribe at hsubscribe
        split at hsubscribe
        · rename_i hrefused
          obtain rfl := Except.error.inj hsubscribe
          exact fun a hsame => Connection.usable_error hrefused a (BusError.transport.inj hsame)
        · cases hsubscribe
      · cases h

/-- A fetch from addresses that are all read does not come to one that is not. -/
theorem fetch_reads {p : Lane → Bool} (ht : x.Tracked)
    (h : (x.fetch now (x.client.addresses p)).1 = .error e) : e.Reads := by
  unfold fetch at h
  split at h
  · rename_i refusal c b hfetch
    obtain rfl := Except.error.inj h
    obtain ⟨-, ⟨-, hrefused⟩ | ⟨a, skipped, -, hbehind⟩⟩ := Connection.fetch_error_cases hfetch
    · exact fun a hsame => hrefused a (BusError.transport.inj hsame)
    · obtain ⟨rest, hlist⟩ := hbehind.listed
      have hmem : a ∈ x.client.addresses p := by rw [hlist]; simp
      have hsome := ht a (mem_addresses hmem)
      rw [hbehind.unread] at hsome
      cases hsome
  · cases h

theorem takeAny_reads (ht : x.Tracked) (h : (x.takeAny now).1 = .error e) : e.Reads := by
  unfold takeAny at h
  split at h
  · cases h
  · exact fetch_reads ht h

theorem take_reads (ht : x.Tracked) (h : (x.take now).1 = .error e) : e.Reads := by
  rw [take_eq] at h
  split at h
  · rename_i y hnone
    exact takeAny_reads ((takeUrgent_took ht hnone).tracked ht) h
  · unfold takeUrgent at h
    split at h
    · cases h
    · exact fetch_reads ht h

theorem gather_reads (hw : x.client.Wired) (h : (x.gather now waited).1 = .error e) :
    e.Reads := by
  unfold gather at h
  rcases x.listen_cases with ⟨hrun, hok⟩ | ⟨refusal, herr⟩
  · have ht : x.listening.Tracked := fun a ha => Client.synced_tracked hw hrun x.broker ha
    rw [hok] at h
    dsimp only at h
    split at h
    · cases h
    · split at h
      · exact takeAny_reads ht h
      · exact take_reads ht h
  · rw [herr] at h
    obtain rfl := Except.error.inj h
    exact listen_reads (by rw [herr])

/-- **A pass never fails because an address is not read.** -/
theorem pass_reads (hw : x.client.Wired) (h : (x.pass now waited).1 = .error e) : e.Reads := by
  unfold pass at h
  split at h
  · rename_i refusal y hgather
    obtain rfl := Except.error.inj h
    exact gather_reads hw (by rw [hgather])
  · rename_i records y hgather
    split at h
    · rename_i refusal z hall
      obtain rfl := Except.error.inj h
      exact dispatchAll_reads (by rw [hall])
    · cases h

end Session

/-! ## Runs -/

/-- **How a member routes**, by what it has registered and told its connection so far. -/
structure Member.Routes (m : Member σ) (b : Broker) (state : σ) (l : Ledger σ) : Prop where
  accords : m.client.Accords l
  /-- There is one subscription for every topic and kind that was ever registered, and no
  other. -/
  single : ∀ key, (m.client.subscriptions.map Subscription.key).count key =
    if key ∈ l.registered.map Subscription.key then 1 else 0
  /-- A routed address is read by the connection of a client that runs, or waits to be told. -/
  tracked : m.client.stopped = false → ∀ a, (m.client.routes.get? a).isSome ↔
    (m.position? a).isSome ∨ a ∈ m.client.unsynced
  /-- No pass fails because an address is not read. -/
  reads : ∀ now waited e, ((m.session b state).pass now waited).1 = .error e → e.Reads
  /-- Every record that is taken has an owner, the latest registration for its address. -/
  owned : ∀ now waited records y, (m.session b state).gather now waited = (.ok records, y) →
    ∀ r ∈ records, ∃ s lane, owner? l.registered r.address = some (s, lane) ∧
      Latest l.registered s ∧ s.Owns lane r.address
  /-- Records are attempted in the order in which they are taken, all of them if the pass goes
  through. -/
  attempted : ∀ now waited records y,
    (m.session b state).gather now waited = (.ok records, y) →
      ((m.session b state).passAttempts now waited).map Attempt.record <+: records ∧
      ∀ n, ((m.session b state).pass now waited).1 = .ok n →
        ((m.session b state).passAttempts now waited).map Attempt.record = records
  /-- Every attempt hands its record to the owner of the address. -/
  handed : ∀ now waited, ((m.session b state).pass now waited).2.state =
    (((m.session b state).passAttempts now waited).map Attempt.record).foldl
      (hand (owner? l.registered) ((m.session b state).emptyOutbox now)) state

theorem Client.Accords.routes {m : Member σ} {l : Ledger σ} (h : m.client.Accords l)
    (hw : m.client.Wired) (b : Broker) (state : σ) : m.Routes b state l := by
  have hreceiver : m.client.receiver? = owner? l.registered := funext h.receiver?
  refine ⟨h, h.count_key, fun hrun a => ?_, fun now waited e => Session.pass_reads hw,
    fun now waited records y hgather r hr => ?_, fun now waited records y hgather => ?_,
    fun now waited => ?_⟩
  · rw [h.known, List.mem_append, Member.position?, h.tracked hrun]
  · have howned := Session.gather_owned hw hgather r hr
    change (m.client.receiver? r.address).isSome at howned
    rw [h.receiver?] at howned
    obtain ⟨⟨s, lane⟩, howner⟩ := Option.isSome_iff_exists.mp howned
    exact ⟨s, lane, howner, owner?_eq_some_iff.mp howner⟩
  · obtain ⟨hfirst, hall⟩ := Session.attempted_records hgather
    exact ⟨hfirst, fun n hok => hall n hok hw⟩
  · rw [← hreceiver]
    exact Session.pass_state hw now waited

namespace Bus

/-- **Every record reaches the callback registered last** for the topic and kind that own its
address.  Whatever has happened on a bus, also when callbacks were replaced and records were
read before, a member has one subscription for every topic and kind, its routes lead from
exactly their addresses, its connection reads these addresses or is about to be told, once,
and a pass hands every record to the owner of its address. -/
theorem run_routes (broker : Broker) (state : σ) (actions : List (Action σ)) {i : Nat}
    {m : Member σ} (hm : (run { broker, state } actions).members[i]? = some m) :
    m.Routes (run { broker, state } actions).broker (run { broker, state } actions).state
      (ledger { broker, state } i actions) :=
  (run_accords broker state actions hm).routes
    ((run_sound (sound_of_no_members broker state) actions).member m
      (List.mem_of_getElem? hm)).wired _ _

/-- A callback cannot send what it makes of a record and is replaced; the record was read before,
and it goes to the callback that is there now. -/
theorem run_routes_replaced :
    let now : Timestamp := ⟨2024, 1, 1, 0, 0, 0, 0⟩
    let keep (name : String) : Callback (List String) Value Value := fun _ _ outbox state =>
      (.done, { outbox with pending := [{ address := "out-NORMAL", payload := name }] },
        state ++ [name])
    let actions : List (Action (List String)) := [
      .connect { url := "memory://b", group := "g", client := "c" }
        { plugin := "p", version := "1", host := "h" } ⟨id, fun _ => .refl _⟩,
      .ask 0 now (.subscribe "in-NORMAL" (keep "old")),
      .append "in-NORMAL-NORMAL" "\x7b\"created_at\":\"2024-01-01T00:00:00Z\"\x7d",
      .outage 0 { send := ["out-NORMAL"] },
      .ask 0 now .poll,
      .outage 0 {},
      .ask 0 now (.subscribe "in-NORMAL" (keep "new"))]
    let b := run { state := [] } actions
    ∃ m, b.members[0]? = some m ∧
      m.Routes b.broker b.state (ledger { state := [] } 0 actions) ∧
      b.state = ["old"] ∧ ((m.session b.broker b.state).poll now).2.state = ["old", "new"] := by
  intro now keep actions b
  refine ⟨_, rfl, run_routes {} [] actions rfl, ?_, ?_⟩
  · decide +kernel
  · decide +kernel

end Bus
end LaneBus
