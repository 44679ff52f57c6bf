import LaneBus.Client.Outbox
import LaneBus.Log

/-! # Subscriptions

A subscription hands the records of a topic to a callback.  A consumer reads the
normal and priority lanes; what it cannot handle is reported on the error lane of
the topic.  A monitor reads the error lane; what it cannot handle is only logged,
so that it never feeds the lane it reads.

The type `σ` is what the callbacks of a client and its error handlers keep from one record to the
next.
-/
namespace LaneBus

open Json

/-- A text that is no JSON of the expected type, as a failure. -/
def Json.ReadError.failure (e : ReadError) : Failure :=
  { kind := "serde_json::error::Error", message := e.message }

/-- How a callback ends. -/
inductive Outcome where
  | done
  | failed (f : Failure)
  | panicked (p : Panic)

/-- The failure of a callback, if it failed. -/
def Outcome.failure? : Outcome → Option Failure
  | .done => none
  | .failed f => some f
  | .panicked p => some (Failure.ofPanic p)

/-- What a consumer does with an envelope from a lane. -/
abbrev Callback (σ I P : Type) := Envelope I P → Lane → Outbox → σ → Outcome × Outbox × σ

/-- What a monitor does with an envelope, and the events it logs. -/
abbrev MonitorCallback (σ : Type) := Envelope Value Value → σ → Outcome × List Event × σ

/-- What becomes of a record. -/
inductive Delivery where
  | handled
  /-- A failure that is reported as `report` on the error lane. -/
  | rejected (failure : Failure) (report : String)
  /-- A failure that is only logged. -/
  | dropped (failure : Failure)

/-- What a handler makes of a record. -/
structure Reaction (σ : Type) where
  delivery : Delivery
  outbox : Outbox
  state : σ
  events : List Event := []

/-- Handles the records of one subscription. -/
abbrev Handler (σ : Type) := Record → Lane → Outbox → σ → Reaction σ

/-- What makes the report of a failure about a record, out of the decoded envelope,
if there is one, the failure, the raw text and what is kept.  A report may refuse
to be written. -/
abbrev Reporter (σ I P : Type) :=
  Option (Envelope I P) → Failure → String → σ → Except String String × σ

/-- What an application reports about a failure, in a form of its own, out of the
decoded envelope, if there is one, the failure and what is kept. -/
structure ErrorHandler (σ I P : Type) where
  {Report : Type}
  [encodes : Encode Report]
  handle : Option (Envelope I P) → Failure → σ → Report × σ

attribute [instance] ErrorHandler.encodes

/-- An error handler that keeps nothing is a plain function. -/
instance {σ I P R : Type} [Encode R] (report : Option (Envelope I P) → Failure → R) :
    CoeDep (Option (Envelope I P) → Failure → R) report (ErrorHandler σ I P) :=
  ⟨{ handle := fun envelope? f state => (report envelope? f, state) }⟩

/-- Reports what an error handler makes of a failure. -/
def ErrorHandler.report {σ I P : Type} (onError : ErrorHandler σ I P) :
    Provenance → Timestamp → Reporter σ I P := fun _ _ envelope? f _ state =>
  let (report, state) := onError.handle envelope? f state
  (encode report, state)

/-- The delivery of a failed record, and what is logged about its report. -/
def Delivery.reject (report : Except String String) (f : Failure) : Delivery × List Event :=
  match report with
  | .ok text => (.rejected f text, [])
  | .error reason =>
    (.dropped f,
      [{ severity := .error
         message := "cannot encode error record for " ++ f.display ++ ": " ++ reason }])

/-- The failure of a record that does not belong on its lane. -/
def laneViolation (lane : Lane) : Failure where
  kind := "LaneViolation"
  message :=
    if lane.isError then "record on the ERROR lane carries no error details or carries a payload"
    else "record on the " ++ lane.name ++ " lane carries error details"

/-- The text of a record as a value: what it says, or the text itself when it is
no JSON. -/
def rawValue (text : String) : Value :=
  match decode Value text with
  | .ok v => v
  | .error _ => .string text

/-- The text of an envelope that reports a failure, around the record. -/
def reportText {I P : Type} [Encode I] [Encode P] (p : Provenance) (now : Timestamp)
    (envelope? : Option (Envelope I P)) (f : Failure) (raw : String) : Except String String :=
  let input : Except String Value :=
    match envelope? with
    | some e => Value.canonical <$> Encode.toJson e
    | none => .ok (rawValue raw)
  match input with
  | .error reason => .error reason
  | .ok input =>
    encode ((Envelope.failed now (some input) f.details : Envelope Value Value).stamped p)

/-- Reports a failure as an envelope around the record. -/
def defaultReport {σ I P : Type} [Encode I] [Encode P] (p : Provenance) (now : Timestamp) :
    Reporter σ I P := fun envelope? f raw state => (reportText p now envelope? f raw, state)

/-- What comes of a failure about a record. -/
def Reaction.rejected {σ I P : Type} (report : Reporter σ I P) (envelope? : Option (Envelope I P))
    (f : Failure) (raw : String) (outbox : Outbox) (state : σ) : Reaction σ :=
  let (text, state) := report envelope? f raw state
  let (delivery, events) := Delivery.reject text f
  { delivery, outbox, state, events }

/-- Handles records with a callback, which is given an empty outbox, and reports
what fails. -/
def Handler.consumer {σ I P : Type} [Decode I] [Decode P] (callback : Callback σ I P)
    (report : Provenance → Timestamp → Reporter σ I P) : Handler σ :=
  fun record lane empty state =>
    let report := report empty.provenance empty.now
    match decode (Envelope I P) record.payload with
    | .error e => .rejected report none e.failure record.payload empty state
    | .ok envelope =>
      let envelope := envelope.consume empty.now
      if !envelope.fits lane then
        .rejected report (some envelope) (laneViolation lane) record.payload empty state
      else
        let (outcome, outbox, state) := callback envelope lane empty state
        match outcome.failure? with
        | none => { delivery := .handled, outbox, state }
        | some f => .rejected report (some envelope) f record.payload outbox state

/-- Handles error records with a callback, dropping what fails. -/
def Handler.monitor {σ : Type} (callback : MonitorCallback σ) : Handler σ :=
  fun record _ outbox state =>
    match decode (Envelope Value Value) record.payload with
    | .error e => { delivery := .dropped e.failure, outbox, state }
    | .ok envelope =>
      let envelope := envelope.consume outbox.now
      if !envelope.fits .error then
        { delivery := .dropped (laneViolation .error), outbox, state }
      else
        let (outcome, events, state) := callback envelope state
        match outcome.failure? with
        | none => { delivery := .handled, outbox, state, events }
        | some f => { delivery := .dropped f, outbox, state, events }

/-- What a subscription is for. -/
inductive SubscriptionKind where
  | consumer
  | monitor
  deriving DecidableEq, Repr

/-- The lanes that a subscription reads. -/
def SubscriptionKind.lanes : SubscriptionKind → List Lane
  | consumer => Lane.consumed
  | monitor => [.error]

/-- A topic, what is read of it, and what handles it. -/
structure Subscription (σ : Type) where
  topic : String
  kind : SubscriptionKind
  handler : Handler σ

end LaneBus
