import LaneBus.Proofs.Wiring

/-! # What a consumer leaves behind

A consumer is handed a record text.  It **accepts** the text when it can be read,
fits the lane, and the callback succeeds, and it **rejects** it with a failure
otherwise (`Accepts`, `Rejects`); there is nothing in between
(`accepts_or_rejects`).

When sends succeed, a dispatch appends all that the callback has queued, in order,
or exactly one report and nothing of what was queued.  The report of a plain
subscription is an error envelope of the client around what was read, or around
the raw record when it could not be read (`IsReport`); that of a subscription with
an error handler is what the handler made of the failure and of what the callback has
left behind (`Session.dispatch_captures`).
-/
namespace LaneBus

open Json

/-! ## Accepting and rejecting -/

section

variable {σ I P : Type} [Decode I] [Decode P]

/-- A text is accepted: the callback succeeds and leaves an outbox. -/
inductive Accepts (callback : Callback σ I P) (text : String) (lane : Lane) (empty : Outbox)
    (state : σ) : Outbox → Prop where
  | intro (e : Envelope I P) (outbox : Outbox) (after : σ)
      (hread : decode (Envelope I P) text = .ok e)
      (hfits : (e.consume empty.now).fits lane = true)
      (hdone : callback (e.consume empty.now) lane empty state = (.done, outbox, after)) :
    Accepts callback text lane empty state outbox

/-- A text is rejected with a failure, after it was read or before, and what is kept is `after`
when the failure is reported. -/
inductive Rejects (callback : Callback σ I P) (text : String) (lane : Lane) (empty : Outbox)
    (state : σ) : Option (Envelope I P) → Failure → (after : σ) → Prop where
  | unreadable (reason : ReadError) (hread : decode (Envelope I P) text = .error reason) :
    Rejects callback text lane empty state none reason.failure state
  | misplaced (e : Envelope I P) (hread : decode (Envelope I P) text = .ok e)
      (hfits : (e.consume empty.now).fits lane = false) :
    Rejects callback text lane empty state (some (e.consume empty.now)) (laneViolation lane) state
  | failed (e : Envelope I P) (f : Failure) (outbox : Outbox) (after : σ)
      (hread : decode (Envelope I P) text = .ok e)
      (hfits : (e.consume empty.now).fits lane = true)
      (hfailed : callback (e.consume empty.now) lane empty state = (.failed f, outbox, after)) :
    Rejects callback text lane empty state (some (e.consume empty.now)) f after
  | panicked (e : Envelope I P) (p : Panic) (outbox : Outbox) (after : σ)
      (hread : decode (Envelope I P) text = .ok e)
      (hfits : (e.consume empty.now).fits lane = true)
      (hpanicked : callback (e.consume empty.now) lane empty state =
        (.panicked p, outbox, after)) :
    Rejects callback text lane empty state (some (e.consume empty.now)) (Failure.ofPanic p) after

variable (callback : Callback σ I P) (text : String) (lane : Lane) (empty : Outbox) (state : σ)

/-- A text is accepted or rejected. -/
theorem accepts_or_rejects :
    (∃ outbox, Accepts callback text lane empty state outbox) ∨
      ∃ e f after, Rejects callback text lane empty state e f after := by
  cases hread : decode (Envelope I P) text with
  | error reason => exact .inr ⟨_, _, _, .unreadable reason hread⟩
  | ok e =>
    cases hfits : (e.consume empty.now).fits lane with
    | false => exact .inr ⟨_, _, _, .misplaced e hread hfits⟩
    | true =>
      rcases hcall : callback (e.consume empty.now) lane empty state with ⟨outcome, outbox, after⟩
      cases outcome with
      | done => exact .inl ⟨outbox, .intro e outbox after hread hfits hcall⟩
      | failed f => exact .inr ⟨_, _, _, .failed e f outbox after hread hfits hcall⟩
      | panicked p => exact .inr ⟨_, _, _, .panicked e p outbox after hread hfits hcall⟩

variable {callback text lane empty state}

/-- What the handler of a consumer makes of a text that it accepts. -/
theorem Accepts.reaction {r : Record} {outbox : Outbox}
    (h : Accepts callback r.payload lane empty state outbox)
    (report : Provenance → Timestamp → Reporter σ I P) :
    (Handler.consumer callback report r lane empty state).delivery = .handled ∧
      (Handler.consumer callback report r lane empty state).outbox = outbox := by
  obtain ⟨e, _, after, hread, hfits, hdone⟩ := h
  simp [Handler.consumer, hread, hfits, hdone, Outcome.failure?]

/-- What the handler of a consumer makes of a text that it rejects: the failure is reported. -/
theorem Rejects.reaction {r : Record} {e : Option (Envelope I P)} {f : Failure} {after : σ}
    (h : Rejects callback r.payload lane empty state e f after)
    (report : Provenance → Timestamp → Reporter σ I P) :
    ∃ outbox, Handler.consumer callback report r lane empty state =
      .rejected (report empty.provenance empty.now) e f r.payload outbox after := by
  cases h with
  | unreadable reason hread => exact ⟨empty, by simp [Handler.consumer, hread]⟩
  | misplaced e hread hfits => exact ⟨empty, by simp [Handler.consumer, hread, hfits]⟩
  | failed e f outbox after hread hfits hfailed =>
    exact ⟨outbox, by simp [Handler.consumer, hread, hfits, hfailed, Outcome.failure?]⟩
  | panicked e p outbox after hread hfits hpanicked =>
    exact ⟨outbox, by simp [Handler.consumer, hread, hfits, hpanicked, Outcome.failure?]⟩

/-- A text is rejected in one way. -/
theorem Rejects.unique {e e' : Option (Envelope I P)} {f f' : Failure} {after after' : σ}
    (h : Rejects callback text lane empty state e f after)
    (h' : Rejects callback text lane empty state e' f' after') :
    e = e' ∧ f = f' ∧ after = after' := by
  cases h <;> cases h' <;> simp_all

/-- A report that can be written is what becomes of a text that is rejected. -/
theorem Rejects.delivery {report : Provenance → Timestamp → Reporter σ I P} {r : Record}
    {e : Option (Envelope I P)} {f : Failure} {after : σ} {made : String}
    (h : Rejects callback r.payload lane empty state e f after)
    (hmade : (report empty.provenance empty.now e f r.payload after).1 = .ok made) :
    (Handler.consumer callback report r lane empty state).delivery = .rejected f made := by
  obtain ⟨outbox, hreaction⟩ := h.reaction report
  rw [hreaction, Reaction.rejected]
  simp only [hmade, Delivery.reject]

end

/-! ## What a dispatch appends -/

/-- A broker with some records appended in order. -/
def Broker.appendAll (b : Broker) (records : List Outgoing) : Broker :=
  records.foldl (fun b r => b.append r.address r.payload) b

/-- Whatever is sent on the connection is stored. -/
def Connection.Delivers (c : Connection) : Prop :=
  ∀ b address payload, c.send b address payload = .ok (b.append address payload)

/-- A record text is the error envelope of a client about a failure: the input is
what was read, or else the raw text as a value, or else the raw text. -/
inductive IsReport {I P : Type} [Encode I] [Encode P] (p : Provenance) (now : Timestamp)
    (raw : String) : Option (Envelope I P) → Failure → String → Prop where
  | read (e : Envelope I P) (f : Failure) (v : Value) (text : String)
      (hinput : Encode.toJson e = .ok v)
      (htext : encode ({
        createdAt := now
        pluginName := some p.plugin
        pluginVersion := some p.version
        host := some p.host
        input := some v.canonical
        err := some { kind := f.kind, message := f.message, trace := f.trace } } :
          Envelope Value Value) = .ok text) :
    IsReport p now raw (some e) f text
  | unread (f : Failure) (v : Value) (text : String)
      (hinput : decode Value raw = .ok v ∨
        (∃ reason, decode Value raw = .error reason) ∧ v = .string raw)
      (htext : encode ({
        createdAt := now
        pluginName := some p.plugin
        pluginVersion := some p.version
        host := some p.host
        input := some v
        err := some { kind := f.kind, message := f.message, trace := f.trace } } :
          Envelope Value Value) = .ok text) :
    IsReport p now raw none f text

theorem isReport_of_reportText {I P : Type} [Encode I] [Encode P] {p : Provenance}
    {now : Timestamp} {raw : String} {e : Option (Envelope I P)} {f : Failure} {text : String}
    (h : reportText p now e f raw = .ok text) : IsReport p now raw e f text := by
  unfold reportText at h
  cases e with
  | none =>
    refine .unread f (rawValue raw) text ?_ h
    unfold rawValue
    cases hraw : decode Value raw with
    | ok v => exact .inl rfl
    | error reason => exact .inr ⟨⟨reason, rfl⟩, rfl⟩
  | some e =>
    cases hinput : Encode.toJson e with
    | error reason =>
      dsimp only at h
      rw [hinput] at h
      cases h
    | ok v =>
      dsimp only at h
      rw [hinput] at h
      exact .read e f v text hinput h

namespace Session

section

variable {σ I P : Type} [Decode I] [Decode P] {x : Session σ} {now : Timestamp} {r : Record}

/-- A dispatch goes through and appends some records, and nothing else. -/
def Appends (x : Session σ) (now : Timestamp) (r : Record) (records : List Outgoing) : Prop :=
  (x.dispatch now r).1 = .ok () ∧ (x.dispatch now r).2.broker = x.broker.appendAll records

theorem sendAll_appends {y : Session σ} (hc : y.client = x.client) (hb : y.broker = x.broker)
    (h : x.client.connection.Delivers) (records : List Outgoing) :
    (y.sendAll records).1 = .ok () ∧
      (y.sendAll records).2.broker = x.broker.appendAll records := by
  induction records generalizing x y with
  | nil => exact ⟨rfl, hb⟩
  | cons r rest ih =>
    unfold sendAll send
    rw [hc, hb, h]
    exact ih (x := { x with broker := x.broker.append r.address r.payload }) rfl rfl h

theorem send_appends {y : Session σ} (hc : y.client = x.client) (hb : y.broker = x.broker)
    (h : x.client.connection.Delivers) (r : Outgoing) :
    (y.send r).1 = .ok () ∧ (y.send r).2.broker = x.broker.appendAll [r] := by
  unfold send
  rw [hc, hb, h]
  exact ⟨rfl, rfl⟩

/-- The outbox that a callback is given. -/
def emptyOutbox (x : Session σ) (now : Timestamp) : Outbox :=
  { provenance := x.client.provenance, now }

theorem send_state (x : Session σ) (r : Outgoing) : (x.send r).2.state = x.state := by
  unfold send
  split <;> rfl

theorem sendAll_state (x : Session σ) (rs : List Outgoing) :
    (x.sendAll rs).2.state = x.state := by
  induction rs generalizing x with
  | nil => rfl
  | cons r rest ih =>
    unfold sendAll
    split
    · rename_i y hy
      rw [ih y, ← x.send_state r, hy]
    · exact x.send_state r

/-- What the callbacks keep is decided before anything is sent. -/
theorem dispatch_state {s : Subscription σ} {lane : Lane}
    (h : x.client.receiver? r.address = some (s, lane)) (now : Timestamp) :
    (x.dispatch now r).2.state = (s.handler r lane (x.emptyOutbox now) x.state).state := by
  unfold dispatch
  simp only [h]
  split
  · rw [sendAll_state]
    rfl
  · rw [send_state]
    rfl
  · rfl

/-- **What a consumer appends**: what an accepted text has queued, or the report of
a rejected one. -/
theorem dispatch_consumer {topic : String} {lane : Lane} {callback : Callback σ I P}
    {report : Provenance → Timestamp → Reporter σ I P}
    (hsends : x.client.connection.Delivers)
    (hconsumes : x.client.Consumes topic (.consumer callback report))
    (hlane : lane.isError = false) (hr : r.address = lane.address topic) (now : Timestamp) :
    (∀ outbox, Accepts callback r.payload lane (x.emptyOutbox now) x.state outbox →
      x.Appends now r outbox.pending) ∧
    ∀ e f after made, Rejects callback r.payload lane (x.emptyOutbox now) x.state e f after →
      (report x.client.provenance now e f r.payload after).1 = .ok made →
        x.Appends now r [{ address := Lane.error.address topic, payload := made }] := by
  have hreceiver := hconsumes lane hlane
  rw [← hr] at hreceiver
  refine ⟨fun outbox haccepts => ?_, fun e f after made hrejects hmade => ?_⟩
  · obtain ⟨hdelivery, houtbox⟩ := haccepts.reaction report
    unfold emptyOutbox at hdelivery houtbox
    unfold Appends dispatch
    simp only [hreceiver, hdelivery, houtbox]
    refine sendAll_appends ?_ ?_ hsends outbox.pending <;> rfl
  · have hdelivery := hrejects.delivery hmade
    unfold emptyOutbox at hdelivery
    unfold Appends dispatch
    simp only [hreceiver, hdelivery]
    refine send_appends ?_ ?_ hsends _ <;> rfl

/-- What is kept after a record was rejected is what its report has left. -/
theorem dispatch_rejected_state {topic : String} {lane : Lane} {callback : Callback σ I P}
    {report : Provenance → Timestamp → Reporter σ I P}
    (hconsumes : x.client.Consumes topic (.consumer callback report))
    (hlane : lane.isError = false) (hr : r.address = lane.address topic) {now : Timestamp}
    {e : Option (Envelope I P)} {f : Failure} {after : σ}
    (h : Rejects callback r.payload lane (x.emptyOutbox now) x.state e f after) :
    (x.dispatch now r).2.state = (report x.client.provenance now e f r.payload after).2 := by
  have hreceiver := hconsumes lane hlane
  rw [← hr] at hreceiver
  obtain ⟨outbox, hreaction⟩ := h.reaction report
  rw [dispatch_state hreceiver]
  exact congrArg Reaction.state hreaction

end

variable {σ I P : Type} [Decode I] [Decode P] [Encode I] [Encode P] {x : Session σ} {r : Record}
  {topic : String} {lane : Lane}

/-- **Nothing of a rejected record but one report.**  When sends succeed and
reports can be written, a dispatch appends either all that the callback has
queued, in order, or one record on the error lane of the topic: an error envelope
of the client, or what the error handler has made, which is asked once. -/
theorem dispatch_captures (callback : Callback σ I P) (onError : ErrorHandler σ I P)
    (hsends : x.client.connection.Delivers) (hlane : lane.isError = false)
    (hr : r.address = lane.address topic) (now : Timestamp) :
    (x.client.Consumes topic (.consumer callback defaultReport) →
      (∀ e f after, Rejects callback r.payload lane (x.emptyOutbox now) x.state e f after →
        ∃ made, reportText x.client.provenance now e f r.payload = .ok made) →
      (∀ outbox, Accepts callback r.payload lane (x.emptyOutbox now) x.state outbox →
        x.Appends now r outbox.pending) ∧
      ((¬∃ outbox, Accepts callback r.payload lane (x.emptyOutbox now) x.state outbox) →
        ∃ e f after made,
          Rejects callback r.payload lane (x.emptyOutbox now) x.state e f after ∧
          IsReport x.client.provenance now r.payload e f made ∧
          x.Appends now r [{ address := Lane.error.address topic, payload := made }])) ∧
    (x.client.Consumes topic (.consumer callback onError.report) →
      (∀ e f after, Rejects callback r.payload lane (x.emptyOutbox now) x.state e f after →
        ∃ made, encode (onError.handle e f after).1 = .ok made) →
      (∀ outbox, Accepts callback r.payload lane (x.emptyOutbox now) x.state outbox →
        x.Appends now r outbox.pending) ∧
      ((¬∃ outbox, Accepts callback r.payload lane (x.emptyOutbox now) x.state outbox) →
        ∃ e f after made,
          Rejects callback r.payload lane (x.emptyOutbox now) x.state e f after ∧
          encode (onError.handle e f after).1 = .ok made ∧
          (x.dispatch now r).2.state = (onError.handle e f after).2 ∧
          x.Appends now r [{ address := Lane.error.address topic, payload := made }])) := by
  refine ⟨fun hconsumes hreport => ?_, fun hconsumes hreport => ?_⟩
  · obtain ⟨haccepted, hrejected⟩ := dispatch_consumer hsends hconsumes hlane hr now
    refine ⟨haccepted, fun hnone => ?_⟩
    -- what is not accepted is rejected with one failure, and that is what is reported
    obtain ⟨e, f, after, hrejects⟩ := (accepts_or_rejects ..).resolve_left hnone
    obtain ⟨made, hmade⟩ := hreport e f after hrejects
    exact ⟨e, f, after, made, hrejects, isReport_of_reportText hmade,
      hrejected e f after made hrejects hmade⟩
  · obtain ⟨haccepted, hrejected⟩ := dispatch_consumer hsends hconsumes hlane hr now
    refine ⟨haccepted, fun hnone => ?_⟩
    obtain ⟨e, f, after, hrejects⟩ := (accepts_or_rejects ..).resolve_left hnone
    obtain ⟨made, hmade⟩ := hreport e f after hrejects
    exact ⟨e, f, after, made, hrejects, hmade,
      dispatch_rejected_state hconsumes hlane hr hrejects,
      hrejected e f after made hrejects hmade⟩

/-- A report on an envelope of plain values can always be written. -/
theorem exists_reportText (p : Provenance) (now : Timestamp) (raw : String)
    (e : Option (Envelope Value Value)) (f : Failure) :
    ∃ made, reportText p now e f raw = .ok made := by
  cases e with
  | none => exact ⟨_, rfl⟩
  | some e =>
    obtain ⟨createdAt, consumedAt, pluginName, pluginVersion, host, input, payload, err⟩ := e
    cases input <;> cases payload <;> exact ⟨_, rfl⟩

/-- A consumer that queues a record for everything, and then fails on what is urgent: what is not
urgent is sent on, and what is urgent leaves one report, whether it could be read or not.  An
error handler makes that report when there is one, of the failure and what was noted before. -/
theorem dispatch_captures_urgent :
    let now : Timestamp := ⟨2024, 1, 1, 0, 0, 0, 0⟩
    let queued : Outgoing := { address := "out-NORMAL", payload := "1" }
    let busy : Failure := { kind := "Busy", message := "later" }
    let callback : Callback (List String) Value Value := fun _ lane outbox notes =>
      (if lane = .priority then .failed busy else .done, { outbox with pending := [queued] },
        notes ++ [lane.name])
    let onError : ErrorHandler (List String) Value Value :=
      { handle := fun _ f notes => (Text.join " " (f.message :: notes), notes ++ [f.kind]) }
    let connection : Connection :=
      { identity := { url := "memory://b", group := "g", client := "c" } }
    let client : Client (List String) :=
      { identity := connection.identity
        provenance := { plugin := "p", version := "1", host := "h" }
        connection }
    let x : Session (List String) :=
      { client := client.register "in" .consumer (.consumer callback defaultReport)
        broker := {}
        state := [] }
    let y : Session (List String) :=
      { x with client := client.register "in" .consumer (.consumer callback onError.report) }
    let text := "\x7b\"created_at\":\"2024-01-01T00:00:00Z\"\x7d"
    let e : Envelope Value Value := { createdAt := now, consumedAt := some now }
    x.Appends now ⟨"in-NORMAL", 0, text⟩ [queued] ∧
      (∃ made, x.Appends now ⟨"in-PRIORITY", 0, "?"⟩
        [{ address := "in-ERROR", payload := made }]) ∧
      (∃ made, IsReport x.client.provenance now text (some e) busy made ∧
        x.Appends now ⟨"in-PRIORITY", 0, text⟩ [{ address := "in-ERROR", payload := made }]) ∧
      y.Appends now ⟨"in-PRIORITY", 0, text⟩
        [{ address := "in-ERROR", payload := "\"later PRIORITY\"" }] ∧
      (y.dispatch now ⟨"in-PRIORITY", 0, text⟩).2.state = ["PRIORITY", "Busy"] := by
  intro now queued busy callback onError connection client x y text e
  have hread : decode (Envelope Value Value) "\x7b\"created_at\":\"2024-01-01T00:00:00Z\"\x7d" =
      .ok { createdAt := ⟨2024, 1, 1, 0, 0, 0, 0⟩ } := by rfl
  have hsends (handler : Handler (List String)) :
      (client.register "in" .consumer handler).connection.Delivers := fun b address payload => by
    rw [Client.register_connection]
    rfl
  have hconsumes : x.client.Consumes "in" (.consumer callback defaultReport) :=
    client.register_consumes "in" (.consumer callback defaultReport)
  have hwritten (raw : String) (e : Option (Envelope Value Value)) (f : Failure) :
      ∃ made, reportText x.client.provenance now e f raw = .ok made :=
    exists_reportText ..
  have hnormal (text : String) :
      (⟨"in-NORMAL", 0, text⟩ : Record).address = Lane.normal.address "in" := by rfl
  have hpriority (text : String) :
      (⟨"in-PRIORITY", 0, text⟩ : Record).address = Lane.priority.address "in" := by rfl
  -- nothing urgent is accepted, and what can be read of it is rejected by the callback
  have hrefused (o : Outbox) (raw : String) :
      ¬∃ outbox, Accepts callback raw .priority o [] outbox := by
    rintro ⟨_, ⟨e, _, _, -, -, hdone⟩⟩
    cases hdone
  have hbusy (o : Outbox) (ho : o.now = now) :
      Rejects callback text .priority o [] (some e) busy ["PRIORITY"] := by
    have hfailed : Rejects callback text .priority o [] _ busy _ :=
      .failed _ busy { o with pending := [queued] } ["PRIORITY"] hread rfl rfl
    rwa [ho] at hfailed
  refine ⟨?_, ?_, ?_, ?_⟩
  · have hcaptures := dispatch_captures (x := x) callback onError (hsends _) rfl (hnormal text) now
    exact (hcaptures.1 hconsumes fun e f _ _ => hwritten text e f).1
      { x.emptyOutbox now with pending := [queued] } (.intro _ _ _ hread rfl rfl)
  · have hcaptures := dispatch_captures (x := x) callback onError (hsends _) rfl (hpriority "?") now
    obtain ⟨e, f, after, made, -, -, happends⟩ :=
      (hcaptures.1 hconsumes fun e f _ _ => hwritten "?" e f).2 (hrefused _ "?")
    exact ⟨made, happends⟩
  · have hcaptures := dispatch_captures (x := x) callback onError (hsends _) rfl
      (hpriority text) now
    obtain ⟨e', f, after, made, hrejects, hreport, happends⟩ :=
      (hcaptures.1 hconsumes fun e f _ _ => hwritten text e f).2 (hrefused _ text)
    obtain ⟨rfl, rfl, -⟩ := hrejects.unique (hbusy _ rfl)
    exact ⟨made, hreport, happends⟩
  · have hcaptures := dispatch_captures (x := y) callback onError (hsends _) rfl
      (hpriority text) now
    obtain ⟨e', f, after, made, hrejects, hmade, hstate, happends⟩ :=
      (hcaptures.2 (client.register_consumes "in" (.consumer callback onError.report))
        fun e f after _ => ⟨_, rfl⟩).2 (hrefused _ text)
    obtain ⟨rfl, rfl, rfl⟩ := hrejects.unique (hbusy _ rfl)
    have hwritten : encode (onError.handle (some e) busy ["PRIORITY"]).1 =
        .ok "\"later PRIORITY\"" := by cbv
    obtain rfl := Except.ok.inj (hwritten.symm.trans hmade)
    exact ⟨happends, hstate⟩

end Session
end LaneBus
