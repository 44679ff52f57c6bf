import LaneBus.Proofs.Capture
import LaneBus.Proofs.Rewiring

/-! # What callbacks keep

Callbacks keep something from one record to the next, for the whole bus.  It goes into
what becomes of a record, and comes out changed, in two places: where a handler calls its callback,
and where it reports a failure (`Handler.consumer_cases`, `Handler.monitor_cases`).  Nothing else
that a client does reads or writes it.

So what all callbacks of a client leave alone, **every operation of the client leaves alone**
(`Operation.perform_view`).
-/
namespace LaneBus

open Json

variable {σ τ : Type}

/-! ## Where a handler calls its callback -/

/-- A consumer reports the same failure whatever is kept, or it calls its callback and reports
how that has failed, if it has. -/
theorem Handler.consumer_cases {I P : Type} [Decode I] [Decode P] (callback : Callback σ I P)
    (report : Provenance → Timestamp → Reporter σ I P) (r : Record) (lane : Lane) (o : Outbox) :
    (∃ e f, ∀ s, Handler.consumer callback report r lane o s =
      .rejected (report o.provenance o.now) e f r.payload o s) ∨
    ∃ e : Envelope I P, ∀ s, Handler.consumer callback report r lane o s =
      match (callback e lane o s).1.failure? with
      | none =>
        { delivery := .handled
          outbox := (callback e lane o s).2.1
          state := (callback e lane o s).2.2 }
      | some f =>
        .rejected (report o.provenance o.now) (some e) f r.payload (callback e lane o s).2.1
          (callback e lane o s).2.2 := by
  cases hread : decode (Envelope I P) r.payload with
  | error e => exact .inl ⟨none, e.failure, fun s => by simp only [Handler.consumer, hread]⟩
  | ok e =>
    cases hfits : (e.consume o.now).fits lane with
    | false =>
      refine .inl ⟨some (e.consume o.now), laneViolation lane, fun s => ?_⟩
      simp only [Handler.consumer, hread, hfits]
      rfl
    | true =>
      refine .inr ⟨e.consume o.now, fun s => ?_⟩
      simp only [Handler.consumer, hread, hfits]
      rfl

/-- A monitor does the same whatever is kept, or it calls its callback, and how the callback
ends decides what becomes of the record. -/
theorem Handler.monitor_cases (callback : MonitorCallback σ) (r : Record) (lane : Lane)
    (o : Outbox) :
    (∃ delivery, ∀ s,
      Handler.monitor callback r lane o s = { delivery, outbox := o, state := s }) ∨
    ∃ (e : Envelope Value Value) (ends : Outcome → Delivery), ∀ s,
      Handler.monitor callback r lane o s = {
        delivery := ends (callback e s).1
        outbox := o
        state := (callback e s).2.2
        events := (callback e s).2.1 } := by
  cases hread : decode (Envelope Value Value) r.payload with
  | error e =>
    refine .inl ⟨.dropped e.failure, fun s => ?_⟩
    simp only [Handler.monitor, hread]
  | ok e =>
    cases hfits : (e.consume o.now).fits .error with
    | false =>
      refine .inl ⟨.dropped (laneViolation .error), fun s => ?_⟩
      simp only [Handler.monitor, hread, hfits]
      rfl
    | true =>
      refine .inr ⟨e.consume o.now, fun outcome => outcome.failure?.elim .handled .dropped,
        fun s => ?_⟩
      simp only [Handler.monitor, hread, hfits]
      cases (callback (e.consume o.now) s).1.failure? <;> rfl

/-! ## Handlers that leave a part of what is kept alone -/

/-- A handler that leaves a view of what is kept as it is. -/
def Handler.Spares (view : σ → τ) (handler : Handler σ) : Prop :=
  ∀ r lane o s, view (handler r lane o s).state = view s

/-- A callback that leaves a view of what is kept as it is. -/
def Callback.Spares {I P : Type} (view : σ → τ) (callback : Callback σ I P) : Prop :=
  ∀ e lane o s, view (callback e lane o s).2.2 = view s

/-- A report that leaves a view of what is kept as it is. -/
def Reporter.Spares {I P : Type} (view : σ → τ) (report : Reporter σ I P) : Prop :=
  ∀ e f raw s, view (report e f raw s).2 = view s

/-- An error handler that leaves a view of what is kept as it is. -/
def ErrorHandler.Spares {I P : Type} (view : σ → τ) (onError : ErrorHandler σ I P) : Prop :=
  ∀ e f s, view (onError.handle e f s).2 = view s

/-- A monitor that leaves a view of what is kept as it is. -/
def MonitorCallback.Spares (view : σ → τ) (callback : MonitorCallback σ) : Prop :=
  ∀ e s, view (callback e s).2.2 = view s

section

variable {view : σ → τ}

theorem defaultReport_spares {I P : Type} [Encode I] [Encode P] (p : Provenance)
    (now : Timestamp) : (defaultReport (I := I) (P := P) p now).Spares view :=
  fun _ _ _ _ => rfl

theorem ErrorHandler.Spares.report {I P : Type} {onError : ErrorHandler σ I P}
    (h : onError.Spares view) (p : Provenance) (now : Timestamp) :
    (onError.report p now).Spares view :=
  fun e f _ s => h e f s

theorem Callback.Spares.consumer {I P : Type} [Decode I] [Decode P] {callback : Callback σ I P}
    (h : callback.Spares view) {report : Provenance → Timestamp → Reporter σ I P}
    (hreport : ∀ p now, (report p now).Spares view) :
    (Handler.consumer callback report).Spares view := by
  intro r lane o s
  rcases Handler.consumer_cases callback report r lane o with ⟨e, f, hrejected⟩ | ⟨e, hcalled⟩
  · rw [hrejected]
    exact hreport o.provenance o.now e f r.payload s
  · have hkept := h e lane o s
    rw [hcalled]
    split
    · exact hkept
    · rename_i f _
      exact (hreport o.provenance o.now (some e) f r.payload _).trans hkept

theorem MonitorCallback.Spares.monitor {callback : MonitorCallback σ} (h : callback.Spares view) :
    (Handler.monitor callback).Spares view := by
  intro r lane o s
  rcases Handler.monitor_cases callback r lane o with
    ⟨delivery, hsame⟩ | ⟨e, ends, hcalled⟩
  · rw [hsame]
  · rw [hcalled]
    exact h e s

end

/-! ## What an operation leaves alone -/

namespace Session

variable {view : σ → τ} {x : Session σ} {now : Timestamp}

/-- All handlers of a session leave a view of what is kept as it is. -/
def Spares (view : σ → τ) (x : Session σ) : Prop :=
  ∀ s ∈ x.client.subscriptions, s.handler.Spares view

theorem sendWrapped_state (x : Session σ) (wrapped : Except BusError Outgoing) :
    (x.sendWrapped wrapped).2.state = x.state := by
  cases wrapped with
  | error e => rfl
  | ok r => exact x.send_state r

theorem fetch_state (x : Session σ) (now : Timestamp) (addresses : List String) :
    (x.fetch now addresses).2.state = x.state := by
  unfold fetch
  split <;> rfl

theorem takeAny_state (x : Session σ) (now : Timestamp) :
    (x.takeAny now).2.state = x.state := by
  have hfetch := x.fetch_state now (x.client.addresses fun _ => true)
  unfold takeAny
  split
  · rename_i records y hy
    rw [hy] at hfetch
    exact hfetch
  · exact hfetch

theorem take_state (x : Session σ) (now : Timestamp) : (x.take now).2.state = x.state := by
  have hfirst : (x.takeUrgent now).2.state = x.state := by
    unfold takeUrgent
    split
    · rfl
    · exact x.fetch_state now _
  rw [take_eq]
  split
  · rename_i y hy
    rw [hy] at hfirst
    exact (y.takeAny_state now).trans hfirst
  · exact hfirst

theorem listen_state (x : Session σ) : x.listen.2.state = x.state := by
  rcases x.listen_cases with ⟨-, hok⟩ | ⟨e, herr⟩
  · rw [hok]
  · rw [herr]

theorem gather_state (x : Session σ) (now : Timestamp) (waited : Bool) :
    (x.gather now waited).2.state = x.state := by
  have hlisten := x.listen_state
  unfold gather
  split
  · rename_i e y hy
    rw [hy] at hlisten
    exact hlisten
  · rename_i y hy
    rw [hy] at hlisten
    split
    · exact hlisten
    · split
      · exact (y.takeAny_state now).trans hlisten
      · exact (y.take_state now).trans hlisten

theorem seekAll_state (x : Session σ) (entries : List (String × Nat)) :
    (x.seekAll entries).state = x.state := by
  induction entries generalizing x with
  | nil => rfl
  | cons e rest ih =>
    unfold seekAll
    split
    · exact ih _
    · exact ih _

theorem dispatch_view (h : x.Spares view) (now : Timestamp) (r : Record) :
    view (x.dispatch now r).2.state = view x.state := by
  cases hreceiver : x.client.receiver? r.address with
  | none =>
    unfold dispatch
    simp only [hreceiver]
    rfl
  | some found =>
    obtain ⟨s, lane⟩ := found
    rw [dispatch_state hreceiver now]
    exact h s (Client.mem_subscriptions_of_receiver? hreceiver) r lane _ x.state

theorem dispatchAll_view (h : x.Spares view) (now : Timestamp) (records : List Record) :
    view (x.dispatchAll now records).2.state = view x.state := by
  induction records generalizing x with
  | nil => rfl
  | cons r rest ih =>
    have hdispatch := dispatch_view h now r
    have hclient := (x.dispatch_steady now r).client
    unfold dispatchAll
    split
    · rename_i y hy
      rw [hy] at hdispatch hclient
      have hy' : y.Spares view := fun s hs => h s (hclient ▸ hs)
      exact (ih hy').trans hdispatch
    · rename_i e y hy
      rw [hy] at hdispatch
      dsimp only [rewind]
      rw [seekAll_state]
      exact hdispatch

theorem pass_view (hw : x.client.Wired) (h : x.Spares view) (now : Timestamp) (waited : Bool) :
    view (x.pass now waited).2.state = view x.state := by
  have hstate := x.gather_state now waited
  unfold pass
  cases hgather : x.gather now waited with
  | mk outcome y =>
    rw [hgather] at hstate
    change y.state = x.state at hstate
    cases outcome with
    | error e => rw [hstate]
    | ok records =>
      have hy : y.Spares view :=
        fun s hs => h s ((gather_wiring hw hgather).subscriptions ▸ hs)
      have hall := dispatchAll_view hy now records
      rw [hstate] at hall
      dsimp only
      split
      · rename_i e z hz
        rw [hz] at hall
        exact hall
      · rename_i z hz
        rw [hz] at hall
        exact hall

end Session

/-- **An operation leaves alone what its handlers leave alone.** -/
theorem Operation.perform_view {view : σ → τ} {x : Session σ} (hw : x.client.Wired)
    (h : x.Spares view) (now : Timestamp) (op : Operation σ) :
    view (op.perform now x).state = view x.state := by
  have hregistered (c : Except BusError (Client σ)) :
      view (x.registered c).state = view x.state := by
    cases c <;> rfl
  cases op with
  | subscribe topic callback => exact hregistered _
  | subscribeWith topic callback onError => exact hregistered _
  | subscribeErrors topic callback => exact hregistered _
  | publish value topic lane =>
    simp only [perform, Session.publish]
    split
    · rfl
    · rw [Session.sendWrapped_state]
  | publishDerived input value topic lane =>
    simp only [perform, Session.publishDerived]
    split
    · rfl
    · rw [Session.sendWrapped_state]
  | publishError input failure topic =>
    simp only [perform, Session.publishError]
    split
    · rfl
    · rw [Session.sendWrapped_state]
  | poll => exact Session.pass_view hw h now false
  | listen => exact congrArg view x.listen_state
  | resume => exact Session.pass_view hw h now true
  | commit =>
    simp only [perform, Session.commit]
    split
    · rfl
    · split <;> rfl
  | heartbeat =>
    simp only [perform, Session.heartbeat]
    split
    · rfl
    · split <;> rfl
  | stop =>
    simp only [perform, Session.stop]
    split
    · rfl
    · split <;> rfl

end LaneBus
