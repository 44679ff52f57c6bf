import LaneBus.Proofs.Capture
import LaneBus.Proofs.Rewiring

/-! # What clients write

A client appends records in many ways: it publishes values and failures itself, it
sends what its callbacks have queued, and it reports what they could not handle.
Whatever the way, a record that comes from a client is an envelope that fits the lane
of its address, names the client as its producer and has not been consumed
(`Written`).

Callbacks only reach their outbox through its two operations (`Outbox.Reaches`), so
what they queue is written in this sense too (`Outbox.Reaches.written`).  Every
operation of a client whose handlers are honest only appends what is written
(`Operation.perform_writes`), and registering handlers keeps a client honest, so the
same holds along every run (`Bus.along_writes`).
-/
namespace LaneBus

open Json

/-! ## Logs that gain records -/

namespace Broker

variable {b b' b'' : Broker} {rs rs' : List Outgoing}

/-- Some records have come behind what the logs of their addresses held, in order. -/
def Gains (b : Broker) (rs : List Outgoing) (b' : Broker) : Prop :=
  ∀ a, b'.log a = b.log a ++ (rs.filter (·.address == a)).map Outgoing.payload

theorem Gains.of_logs (h : b'.logs = b.logs) : b.Gains [] b' := fun a => by
  rw [log_of_logs h, List.filter_nil, List.map_nil, List.append_nil]

theorem Gains.refl (b : Broker) : b.Gains [] b :=
  .of_logs rfl

theorem Gains.trans (h : b.Gains rs b') (h' : b'.Gains rs' b'') : b.Gains (rs ++ rs') b'' :=
  fun a => by
    rw [h', h, List.filter_append, List.map_append, List.append_assoc]

theorem gains_append (b : Broker) (r : Outgoing) : b.Gains [r] (b.append r.address r.payload) :=
  fun a => by
    rw [log_append]
    by_cases h : r.address = a
    · subst h
      simp
    · simp [h]

theorem gains_appendAll (b : Broker) (rs : List Outgoing) : b.Gains rs (b.appendAll rs) := by
  induction rs generalizing b with
  | nil => exact .refl b
  | cons r rest ih => exact (b.gains_append r).trans (ih _)

end Broker

/-! ## Written records -/

/-- A record that comes from a client: an envelope that fits the lane of its address, that
the client has produced and nobody has consumed. -/
inductive Written (p : Provenance) : Outgoing → Prop where
  | intro (lane : Lane) (topic payload : String) (e : Envelope Value Value)
      (hfits : e.fits lane = true) (hconsumed : e.consumedAt = none)
      (hplugin : e.pluginName = some p.plugin) (hversion : e.pluginVersion = some p.version)
      (hhost : e.host = some p.host) (hpayload : encode e = .ok payload) :
    Written p { address := lane.address topic, payload }

section

variable {I P : Type} [Encode I] [Encode P]

/-- A value that is encoded is present just when the value was. -/
theorem Envelope.isSome_encoded {α : Type} [Encode α] {x : Option α} {v : Option Value}
    (h : Envelope.encoded x = .ok v) : v.isSome = x.isSome := by
  cases x with
  | none =>
    cases h
    rfl
  | some x =>
    cases hx : Encode.toJson x with
    | error reason =>
      simp only [encoded, hx] at h
      cases h
    | ok w =>
      simp only [encoded, hx] at h
      cases h
      rfl

/-- What is encoded of an envelope is an envelope of values. -/
theorem exists_encode_values {e : Envelope I P} {text : String} (h : encode e = .ok text) :
    ∃ (input payload : Option Value), payload.isSome = e.payload.isSome ∧
      encode ({ e with input, payload } : Envelope Value Value) = .ok text := by
  cases hinput : Envelope.encoded e.input with
  | error reason =>
    simp only [encode, Encode.toJson, hinput] at h
    cases h
  | ok input =>
    cases hpayload : Envelope.encoded e.payload with
    | error reason =>
      simp only [encode, Encode.toJson, hinput, hpayload] at h
      cases h
    | ok payload =>
      refine ⟨input, payload, Envelope.isSome_encoded hpayload, ?_⟩
      simp only [encode, Encode.toJson, hinput, hpayload] at h
      have hvalue (v : Option Value) : Envelope.encoded v = .ok v := by cases v <;> rfl
      simp only [encode, Encode.toJson, hvalue]
      exact h

/-- An envelope that fits its lane is written under the name of its producer. -/
theorem Outgoing.ofEnvelope_written {p : Provenance} {e : Envelope I P} {topic : String}
    {lane : Lane} {r : Outgoing} (hfits : e.fits lane = true) (hconsumed : e.consumedAt = none)
    (h : Outgoing.ofEnvelope p e topic lane = .ok r) : Written p r := by
  rw [ofEnvelope] at h
  split at h
  · cases h
  · rename_i payload hencode
    cases h
    obtain ⟨input, payload', hsome, htext⟩ := exists_encode_values hencode
    refine .intro lane topic payload _ ?_ hconsumed rfl rfl rfl htext
    -- only whether there is a payload counts, not what it is
    have hnone : payload'.isNone = e.payload.isNone := by
      rw [← Option.not_isSome, ← Option.not_isSome, hsome]
      rfl
    simp only [Envelope.fits] at hfits ⊢
    rw [hnone]
    exact hfits

variable {U T : Type} [Encode U] [Encode T]

/-- A value is written on the lane it is meant for, which is never the error lane. -/
theorem Outgoing.ofValue_written {p : Provenance} {now : Timestamp} {input : Option U} {value : T}
    {topic : String} {lane : Lane} {r : Outgoing}
    (h : Outgoing.ofValue p now input value topic lane = .ok r) :
    Written p r ∧ ∀ t, r.address ≠ Lane.error.address t := by
  unfold ofValue at h
  split at h
  · cases h
  · rename_i hlane
    have haddress : r.address = lane.address topic := by
      simp only [ofEnvelope] at h
      split at h <;> cases h
      rfl
    refine ⟨?_, fun t ht => hlane ?_⟩
    · cases input with
      | none => exact ofEnvelope_written (by simp [Envelope.fits, hlane, Envelope.origin]) rfl h
      | some u => exact ofEnvelope_written (by simp [Envelope.fits, hlane, Envelope.derived]) rfl h
    · rw [(Lane.address_inj.mp (haddress.symm.trans ht)).1]
      rfl

theorem Outgoing.ofValue_error {p : Provenance} {now : Timestamp} {input : Option U} {value : T}
    {topic : String} {lane : Lane} (h : lane.isError = true) :
    Outgoing.ofValue p now input value topic lane = .error (.errorLaneReserved topic) :=
  if_pos h

/-- A report is written on the error lane. -/
theorem IsReport.written {p : Provenance} {now : Timestamp} {raw : String}
    {e : Option (Envelope I P)} {f : Failure} {text : String} (h : IsReport p now raw e f text)
    (topic : String) : Written p { address := Lane.error.address topic, payload := text } := by
  cases h with
  | read e f v text hinput htext => exact .intro .error topic text _ rfl rfl rfl rfl rfl htext
  | unread f v text hinput htext => exact .intro .error topic text _ rfl rfl rfl rfl rfl htext

end

/-! ## Honest callbacks -/

namespace Outbox

/-- An outbox comes of another one by queueing values. -/
inductive Reaches (o : Outbox) : Outbox → Prop where
  | refl : Reaches o o
  | publish {T : Type} [Encode T] {o' o'' : Outbox} (value : T) (topic : String) (lane : Lane)
    (h : Reaches o o') (hpublish : o'.publish value topic lane = .ok o'') : Reaches o o''
  | publishDerived {U T : Type} [Encode U] [Encode T] {o' o'' : Outbox} (input : U) (value : T)
    (topic : String) (lane : Lane) (h : Reaches o o')
    (hpublish : o'.publishDerived input value topic lane = .ok o'') : Reaches o o''

variable {U T : Type} [Encode U] [Encode T] {o o' : Outbox}

/-- Queueing a value adds a record that is written, and none on an error lane. -/
theorem publish_written {value : T} {topic : String} {lane : Lane}
    (h : o.publish value topic lane = .ok o') :
    ∃ r, o' = { o with pending := o.pending ++ [r] } ∧ Written o.provenance r ∧
      ∀ t, r.address ≠ Lane.error.address t := by
  rw [publish] at h
  split at h
  · cases h
  · rename_i r hr
    cases h
    exact ⟨r, rfl, Outgoing.ofValue_written hr⟩

theorem publishDerived_written {input : U} {value : T} {topic : String} {lane : Lane}
    (h : o.publishDerived input value topic lane = .ok o') :
    ∃ r, o' = { o with pending := o.pending ++ [r] } ∧ Written o.provenance r ∧
      ∀ t, r.address ≠ Lane.error.address t := by
  rw [publishDerived] at h
  split at h
  · cases h
  · rename_i r hr
    cases h
    exact ⟨r, rfl, Outgoing.ofValue_written hr⟩

/-- What has been queued is written. -/
theorem Reaches.written (h : o.Reaches o') (hpending : ∀ r ∈ o.pending, Written o.provenance r) :
    o'.provenance = o.provenance ∧ ∀ r ∈ o'.pending, Written o.provenance r := by
  have hmore {o' o'' : Outbox} {r : Outgoing} (ho' : o'.provenance = o.provenance ∧
      ∀ r ∈ o'.pending, Written o.provenance r) (hr : Written o'.provenance r)
      (ho'' : o'' = { o' with pending := o'.pending ++ [r] }) :
      o''.provenance = o.provenance ∧ ∀ r ∈ o''.pending, Written o.provenance r := by
    subst ho''
    refine ⟨ho'.1, fun r' hr' => ?_⟩
    rcases List.mem_append.mp hr' with hr' | hr'
    · exact ho'.2 r' hr'
    · rw [List.mem_singleton.mp hr', ← ho'.1]
      exact hr
  induction h with
  | refl => exact ⟨rfl, hpending⟩
  | publish value topic lane h hpublish ih =>
    obtain ⟨r, ho'', hr, -⟩ := publish_written hpublish
    exact hmore ih hr ho''
  | publishDerived input value topic lane h hpublish ih =>
    obtain ⟨r, ho'', hr, -⟩ := publishDerived_written hpublish
    exact hmore ih hr ho''

end Outbox

variable {σ : Type}

/-- A callback that only queues values into the outbox that it is given. -/
def Callback.Honest {I P : Type} (callback : Callback σ I P) : Prop :=
  ∀ e lane (o : Outbox) state, o.Reaches (callback e lane o state).2.1

/-- What becomes of a record on behalf of a producer: all that is sent is written. -/
inductive Delivery.Honest (p : Provenance) (queued : List Outgoing) : Delivery → Prop where
  | handled (h : ∀ r ∈ queued, Written p r) : Honest p queued .handled
  | rejected (f : Failure) (report : String)
    (h : ∀ topic, Written p { address := Lane.error.address topic, payload := report }) :
    Honest p queued (.rejected f report)
  | dropped (f : Failure) : Honest p queued (.dropped f)

/-- A handler that only sends what is written on behalf of a producer. -/
def Handler.Honest (p : Provenance) (handler : Handler σ) : Prop :=
  ∀ r lane now state, (handler r lane { provenance := p, now } state).delivery.Honest p
    (handler r lane { provenance := p, now } state).outbox.pending

section

variable {p : Provenance}

/-- Reports are written, whatever they report. -/
theorem Delivery.reject_honest {queued : List Outgoing} {report : Except String String}
    (h : ∀ text, report = .ok text →
      ∀ topic, Written p { address := Lane.error.address topic, payload := text }) (f : Failure) :
    (Delivery.reject report f).1.Honest p queued := by
  cases report with
  | error reason => exact .dropped f
  | ok text => exact .rejected f text (h text rfl)

/-- A plain subscription is honest when its callback is. -/
theorem Handler.consumer_honest {I P : Type} [Decode I] [Decode P] [Encode I] [Encode P]
    {callback : Callback σ I P} (h : callback.Honest) :
    (Handler.consumer callback defaultReport).Honest p := by
  intro r lane now state
  have hreject (e : Option (Envelope I P)) (f : Failure) (outbox : Outbox) (after : σ) :
      (Reaction.rejected (defaultReport p now) e f r.payload outbox after).delivery.Honest p
        outbox.pending := by
    unfold Reaction.rejected
    exact Delivery.reject_honest (fun text htext => (isReport_of_reportText htext).written) f
  unfold Handler.consumer
  dsimp only
  split
  · exact hreject ..
  · rename_i e hread
    split
    · exact hreject ..
    · rcases hcall : callback (e.consume now) lane { provenance := p, now } state with
        ⟨outcome, outbox, after⟩
      have hreaches := h (e.consume now) lane { provenance := p, now } state
      rw [hcall] at hreaches
      obtain ⟨-, hwritten⟩ := hreaches.written fun r hr => by cases hr
      dsimp only
      split
      · exact .handled hwritten
      · exact hreject ..

/-- A monitor sends nothing. -/
theorem Handler.monitor_honest (callback : MonitorCallback σ) :
    (Handler.monitor callback).Honest p := by
  intro r lane now state
  unfold Handler.monitor
  dsimp only
  split
  · exact .dropped _
  · split
    · exact .dropped _
    · split
      · exact .handled fun r hr => by cases hr
      · exact .dropped _

end

/-! ## What an operation writes -/

/-- The handlers of a client are honest on its behalf. -/
def Client.Honest (c : Client σ) : Prop :=
  ∀ s ∈ c.subscriptions, s.handler.Honest c.provenance

theorem Client.Honest.of_same {c c' : Client σ} (h : c.Honest)
    (hsubs : c'.subscriptions = c.subscriptions) (hprovenance : c'.provenance = c.provenance) :
    c'.Honest := by
  intro s hs
  rw [hprovenance]
  exact h s (hsubs ▸ hs)

/-- Registering an honest handler keeps a client honest. -/
theorem Client.Honest.register {c : Client σ} (h : c.Honest) {handler : Handler σ}
    (hhandler : handler.Honest c.provenance) (topic : String) (kind : SubscriptionKind) :
    (c.register topic kind handler).Honest := by
  intro s hs
  rw [register_provenance]
  rcases mem_subscriptions_register hs with hnew | ⟨s', hs', hold⟩
  · exact hnew ▸ hhandler
  · exact hold ▸ h s' hs'

namespace Session

variable {x y z : Session σ} {now : Timestamp}

/-- A session has written some records on behalf of its client, and nothing else has been
appended. -/
structure Writes (x y : Session σ) : Prop where
  provenance : y.client.provenance = x.client.provenance
  gains : ∃ rs, x.broker.Gains rs y.broker ∧ ∀ r ∈ rs, Written x.client.provenance r

theorem Writes.of_logs (hprovenance : y.client.provenance = x.client.provenance)
    (h : y.broker.logs = x.broker.logs) : x.Writes y :=
  ⟨hprovenance, [], .of_logs h, fun r hr => by cases hr⟩

theorem Writes.refl (x : Session σ) : x.Writes x :=
  .of_logs rfl rfl

theorem Writes.trans (h : x.Writes y) (h' : y.Writes z) : x.Writes z := by
  obtain ⟨rs, hgains, hwritten⟩ := h.gains
  obtain ⟨rs', hgains', hwritten'⟩ := h'.gains
  refine ⟨h'.provenance.trans h.provenance, rs ++ rs', hgains.trans hgains', fun r hr => ?_⟩
  rcases List.mem_append.mp hr with hr | hr
  · exact hwritten r hr
  · exact h.provenance ▸ hwritten' r hr

/-- What callbacks keep, what is logged and where the connection stands does not count. -/
theorem Writes.of_same {x' : Session σ} (h : x.Writes y)
    (hprovenance : x.client.provenance = x'.client.provenance)
    (hbroker : x.broker = x'.broker) : x'.Writes y :=
  ⟨h.provenance.trans hprovenance, hprovenance ▸ hbroker ▸ h.gains⟩

theorem send_writes (x : Session σ) {r : Outgoing} (h : Written x.client.provenance r) :
    x.Writes (x.send r).2 := by
  unfold send
  split
  · exact .refl x
  · rename_i broker hsend
    unfold Connection.send at hsend
    split at hsend
    · cases hsend
    · cases hsend
      refine ⟨rfl, [r], x.broker.gains_append r, fun r' hr' => ?_⟩
      rw [List.mem_singleton.mp hr']
      exact h

theorem sendAll_writes (x : Session σ) {rs : List Outgoing}
    (h : ∀ r ∈ rs, Written x.client.provenance r) : x.Writes (x.sendAll rs).2 := by
  induction rs generalizing x with
  | nil => exact .refl x
  | cons r rest ih =>
    have hsend := x.send_writes (h r List.mem_cons_self)
    unfold sendAll
    split
    · rename_i y hy
      rw [hy] at hsend
      refine hsend.trans (ih y fun r' hr' => ?_)
      have hr := h r' (List.mem_cons_of_mem _ hr')
      exact hsend.provenance ▸ hr
    · exact hsend

/-- A dispatch to an honest handler only sends what is written. -/
theorem dispatch_writes (h : x.client.Honest) (now : Timestamp) (r : Record) :
    x.Writes (x.dispatch now r).2 := by
  unfold dispatch
  split
  · exact .of_logs rfl rfl
  · rename_i s lane hreceiver
    have hmem : s ∈ x.client.subscriptions := Client.mem_subscriptions_of_receiver? hreceiver
    have hhonest := h s hmem r lane now x.state
    generalize s.handler r lane { provenance := x.client.provenance, now } x.state = reaction
      at hhonest ⊢
    obtain ⟨delivery, outbox, state, events⟩ := reaction
    cases hhonest with
    | handled hwritten =>
      exact (sendAll_writes (({ x with state } : Session σ).logged events) hwritten).of_same rfl rfl
    | rejected f report hwritten =>
      have hsend := send_writes (({ x with state } : Session σ).logged events |>.logged
        [warning ("processing " ++ recordName r ++ " failed, reporting on ERROR lane: " ++
          f.display)])
        (hwritten s.topic)
      exact hsend.of_same rfl rfl
    | dropped f => exact .of_logs rfl rfl

/-- Going back writes nothing. -/
theorem seekAll_writes (x : Session σ) (entries : List (String × Nat)) :
    x.Writes (x.seekAll entries) := by
  induction entries generalizing x with
  | nil => exact .refl x
  | cons e rest ih =>
    unfold seekAll
    split
    · rename_i connection _
      exact (ih (x.withConnection connection)).of_same rfl rfl
    · exact (ih _).of_same rfl rfl

theorem dispatchAll_writes (h : x.client.Honest) (now : Timestamp) (records : List Record) :
    x.Writes (x.dispatchAll now records).2 := by
  induction records generalizing x with
  | nil => exact .refl x
  | cons r rest ih =>
    have hwrites := dispatch_writes h now r
    have hclient := (x.dispatch_steady now r).client
    unfold dispatchAll
    split
    · rename_i y hy
      rw [hy] at hwrites hclient
      exact hwrites.trans (ih (hclient ▸ h))
    · rename_i e y hy
      rw [hy] at hwrites
      exact hwrites.trans (seekAll_writes y _)

/-- A pass only sends what is written. -/
theorem pass_writes (hw : x.client.Wired) (h : x.client.Honest) (now : Timestamp)
    (waited : Bool) : x.Writes (x.pass now waited).2 := by
  unfold pass
  cases hgather : x.gather now waited with
  | mk outcome y =>
    have hwiring := gather_wiring hw hgather
    have hwrites : x.Writes y := by
      rcases gather_cases hw hgather with ⟨-, rfl⟩ | ⟨-, htook⟩
      · exact .refl y
      · exact .of_logs hwiring.provenance htook.logs
    cases outcome with
    | error e => exact hwrites
    | ok records =>
      have hall :=
        dispatchAll_writes (h.of_same hwiring.subscriptions hwiring.provenance) now records
      dsimp only
      split
      · rename_i hz
        rw [hz] at hall
        exact hwrites.trans hall
      · rename_i hz
        rw [hz] at hall
        exact hwrites.trans hall

theorem sendWrapped_writes (x : Session σ) {wrapped : Except BusError Outgoing}
    (h : ∀ r, wrapped = .ok r → Written x.client.provenance r) :
    x.Writes (x.sendWrapped wrapped).2 := by
  cases wrapped with
  | error e => exact .refl x
  | ok r => exact x.send_writes (h r rfl)

end Session

namespace Operation

variable {x : Session σ}

/-- Operations that register no error handler, and only callbacks that are honest. -/
def Honest : Operation σ → Prop
  | subscribe _ callback => callback.Honest
  | subscribeWith _ _ _ => False
  | _ => True

theorem registered_writes (c : Except BusError (Client σ))
    (h : ∀ client, c = .ok client → client.provenance = x.client.provenance) :
    x.Writes (x.registered c) := by
  cases c with
  | error e => exact .refl x
  | ok client => exact .of_logs (h client rfl) rfl

/-- **Every operation only appends what is written.** -/
theorem perform_writes (hw : x.client.Wired) (h : x.client.Honest) (now : Timestamp)
    (op : Operation σ) : x.Writes (op.perform now x) := by
  have hregistered (topic : String) (kind : SubscriptionKind) (handler : Handler σ) :
      x.Writes (x.registered (if x.client.stopped then .error .stopped
        else .ok (x.client.register topic kind handler))) := by
    refine registered_writes _ fun client hclient => ?_
    split at hclient
    · cases hclient
    · cases hclient
      exact x.client.register_provenance ..
  cases op with
  | subscribe topic callback => exact hregistered ..
  | subscribeWith topic callback onError => exact hregistered ..
  | subscribeErrors topic callback => exact hregistered ..
  | publish value topic lane =>
    simp only [perform, Session.publish]
    split
    · exact .refl x
    · exact x.sendWrapped_writes fun r hr => (Outgoing.ofValue_written hr).1
  | publishDerived input value topic lane =>
    simp only [perform, Session.publishDerived]
    split
    · exact .refl x
    · exact x.sendWrapped_writes fun r hr => (Outgoing.ofValue_written hr).1
  | publishError input failure topic =>
    simp only [perform, Session.publishError]
    split
    · exact .refl x
    · exact x.sendWrapped_writes fun r hr => Outgoing.ofEnvelope_written rfl rfl hr
  | poll => exact Session.pass_writes hw h now false
  | listen =>
    simp only [perform]
    rcases x.listen_cases with ⟨-, hok⟩ | ⟨e, herr⟩
    · rw [hok]; exact .of_logs rfl rfl
    · rw [herr]; exact .refl x
  | resume => exact Session.pass_writes hw h now true
  | commit => exact .of_logs (by rw [perform, x.commit_client]) (Session.commit_eq hw).1
  | heartbeat =>
    exact .of_logs (by rw [perform, x.heartbeat_client]) (x.heartbeat_logs_committed now).1
  | stop =>
    refine .of_logs ?_ (by rw [perform, x.stop_broker])
    simp only [perform, Session.stop]
    split
    · rfl
    · split <;> rfl

/-- What an honest operation registers is honest, whoever writes for it. -/
theorem Honest.registration {op : Operation σ} (h : op.Honest) {topic : String}
    {kind : SubscriptionKind} {handler : Handler σ}
    (hop : op.registration? = some (topic, kind, handler)) (p : Provenance) :
    handler.Honest p := by
  cases op with
  | subscribe t callback => cases hop; exact Handler.consumer_honest h
  | subscribeWith t callback onError => cases h
  | subscribeErrors t callback => cases hop; exact Handler.monitor_honest callback
  | _ => cases hop

end Operation

/-! ## What a run writes -/

/-- The callbacks that an action registers are honest. -/
def Action.Honest : Action σ → Prop
  | .ask _ _ op => op.Honest
  | _ => True

namespace Bus

variable {b b' : Bus σ} {action : Action σ}

/-- The handlers of all members are honest. -/
def Honest (b : Bus σ) : Prop := ∀ m ∈ b.members, m.client.Honest

/-- What an operation of a member appends is written on behalf of the member. -/
def Writes (b : Bus σ) (action : Action σ) : Prop :=
  ∀ i now op m, action = .ask i now op → b.members[i]? = some m →
    ∃ rs, b.broker.Gains rs (b.apply action).broker ∧ ∀ r ∈ rs, Written m.client.provenance r

theorem writes_of_honest (hs : b.Sound) (h : b.Honest) (action : Action σ) : b.Writes action := by
  rintro i now op m rfl hm
  have hmem := List.mem_of_getElem? hm
  have hwrites := op.perform_writes (x := m.session b.broker b.state)
    (hs.member m hmem).wired (h m hmem) now
  simp only [apply, hm]
  exact hwrites.gains

/-- Members stay honest: a new client has no handlers, and what is registered is honest. -/
theorem Honest.apply (hs : b.Sound) (h : b.Honest) (haction : action.Honest) :
    (b.apply action).Honest := by
  refine forall_clients_apply hs h ?_ ?_ ?_ ?_
  · intro c hsubs _ _ s hmem
    rw [hsubs] at hmem
    cases hmem
  · intro c c' hwiring hc
    exact hc.of_same hwiring.subscriptions hwiring.provenance
  · intro i outage m _ hm
    exact hm.of_same rfl rfl
  · rintro i now op m topic kind handler rfl _ hop hm
    exact hm.register (Operation.Honest.registration haction hop _) topic kind

/-- **Along every run of honest clients, what they append is written.** -/
theorem along_writes (hs : b.Sound) (h : b.Honest) {actions : List (Action σ)}
    (hactions : ∀ action ∈ actions, action.Honest) : b.Along Writes actions := by
  induction actions generalizing b with
  | nil => exact trivial
  | cons action rest ih =>
    obtain ⟨haction, hrest⟩ := List.forall_mem_cons.mp hactions
    exact ⟨b.writes_of_honest hs h action,
      ih ((b.step_apply action).sound hs) (h.apply hs haction) hrest⟩

end Bus
end LaneBus
