import LaneBus.Plugin.Relay
import LaneBus.Proofs.Whole
import LaneBus.Proofs.Writing

/-! # Records keep to their lanes

Whoever decodes an envelope finds a payload just when it was written with one, and a
failure just when it was written with one, whatever types it is decoded as
(`Envelope.decode_presence`).  So what is written for a lane fits the lane for everybody
who reads it (`Written.fits`).

With what clients write along a run (`Bus.along_writes`) and with the error lanes being
out of reach of whatever publishes values, this makes the lane invariant of the bus
(`Bus.lanes_kept`).
-/
namespace LaneBus

open Json

/-! ## What is found in an envelope -/

namespace Json.RecordFormat

variable {σ : Type} {depth : Nat}

/-- A slot reads whole values when its field does. -/
theorem slot_ends {β : Type} {name : String} {get : σ → Option β} {set : σ → β → σ}
    {value : Nat → Reader β} {acc : σ} {reader : Nat → Reader σ} {rest s : List Char}
    (hstep : slot name get set value acc = .ok reader) (h : EndsAt rest (value depth s)) :
    EndsAt rest (reader depth s) := by
  unfold slot at hstep
  split at hstep
  · cases hstep
  · cases hstep
    exact h.mapRead _

end Json.RecordFormat

namespace Envelope

variable {I P : Type} [Decode I] [Decode P] {depth i : Nat} {k : String} {acc next : Draft I P}
  {reader : Nat → Reader (Draft I P)} {s rest : List Char}

/-- Every field reads whole values, failure details among them. -/
theorem fieldStep_ends [ReadsWhole I] [ReadsWhole P] {v : Value}
    (hstep : fieldStep k i acc = .ok reader) (herr : 7 ≤ i → ∃ d : ErrorDetails, v = d.toValue)
    (hrest : Closes rest) : EndsAt rest (reader (depth + 1) (v.chars ++ rest)) := by
  have htimestamp := readTimestamp_ends v rest
  have htext := readText_ends v rest
  unfold fieldStep at hstep
  match i with
  | 0 => exact RecordFormat.slot_ends hstep htimestamp
  | 1 => exact RecordFormat.slot_ends hstep (readOptional_ends v htimestamp)
  | 2 => exact RecordFormat.slot_ends hstep (readOptional_ends v htext)
  | 3 => exact RecordFormat.slot_ends hstep (readOptional_ends v htext)
  | 4 => exact RecordFormat.slot_ends hstep (readOptional_ends v htext)
  | 5 => exact RecordFormat.slot_ends hstep (ReadsWhole.ends _ v hrest)
  | 6 => exact RecordFormat.slot_ends hstep (ReadsWhole.ends _ v hrest)
  | n + 7 =>
    obtain ⟨d, rfl⟩ := herr (Nat.le_add_left 7 n)
    refine RecordFormat.slot_ends hstep (readOptional_ends _ ?_)
    have hread : Decode.read (depth + 1) (d.toValue.chars ++ rest) = .ok (d, rest) :=
      d.read_toValue depth rest
    rw [hread]
    exact endsAt_ok _ _

/-- A field makes itself present in a draft, and no other one. -/
theorem fieldStep_presence {v : Value} (hstep : fieldStep k i acc = .ok reader)
    (herr : 7 ≤ i → ∃ d : ErrorDetails, v = d.toValue)
    (hread : reader depth (v.chars ++ s) = .ok (next, rest)) :
    next.payload.isSome = (acc.payload.isSome || i == 6) ∧
      next.err.join.isSome = (acc.err.join.isSome || decide (7 ≤ i)) := by
  unfold fieldStep at hstep
  match i with
  | 0 | 1 | 2 | 3 | 4 | 5 | 6 =>
    obtain ⟨x, -, rfl⟩ := RecordFormat.slot_ok hstep hread
    simp
  | n + 7 =>
    have hlast : 7 ≤ n + 7 := Nat.le_add_left 7 n
    have hother : (n + 7 == 6) = false := beq_false_of_ne (Nat.ne_of_gt hlast)
    obtain ⟨x, hx, rfl⟩ := RecordFormat.slot_ok hstep hread
    -- failure details are no null, so they are found
    obtain ⟨d, rfl⟩ := herr hlast
    rw [ErrorDetails.toValue, Value.chars, List.cons_append,
      readOptional_cons _ _ (by decide) (by decide)] at hx
    obtain ⟨y, -, rfl⟩ := mapRead_ok hx
    simp [hlast, hother]

/-! ## Known fields -/

theorem idxOf_payload : ∀ k ∈ fieldNames, (fieldNames.idxOf k == 6) = (k == "payload") := by
  decide

theorem idxOf_err : ∀ k ∈ fieldNames, decide (7 ≤ fieldNames.idxOf k) = (k == "err") := by
  decide

/-- Members are known by their names, and only failure details by the name of `err`. -/
def Known (m : String × Value) : Prop :=
  m.1 ∈ fieldNames ∧ (m.1 = "err" → ∃ d : ErrorDetails, m.2 = d.toValue)

theorem Known.of_ne {v : Value} (hk : k ∈ fieldNames) (hne : k ≠ "err") : Known (k, v) :=
  ⟨hk, fun h => absurd h hne⟩

theorem Known.err {m : String × Value} (h : Known m) (hi : 7 ≤ fieldNames.idxOf m.1) :
    ∃ d : ErrorDetails, m.2 = d.toValue := by
  have heq := idxOf_err m.1 h.1
  rw [decide_eq_true hi] at heq
  exact h.2 (eq_of_beq heq.symm)

theorem field_of_mem (hk : k ∈ fieldNames) :
    (format I P).field k = some (fieldStep k (fieldNames.idxOf k)) :=
  if_pos hk

/-- All members of an envelope are known. -/
theorem members_known {e : Envelope Value Value} {input payload : Option Value} :
    ∀ m ∈ e.members input payload, Known m := by
  intro m hm
  simp only [members, List.mem_cons, List.mem_append, mem_member, Option.map_eq_some_iff] at hm
  rcases hm with rfl | (((((⟨v, -, rfl⟩ | ⟨v, -, rfl⟩) | ⟨v, -, rfl⟩) | ⟨v, -, rfl⟩) |
    ⟨v, -, rfl⟩) | ⟨v, -, rfl⟩) | ⟨v, ⟨d, -, rfl⟩, rfl⟩
  · exact .of_ne (by decide) (by decide)
  · exact .of_ne (by decide) (by decide)
  · exact .of_ne (by decide) (by decide)
  · exact .of_ne (by decide) (by decide)
  · exact .of_ne (by decide) (by decide)
  · exact .of_ne (by decide) (by decide)
  · exact .of_ne (by decide) (by decide)
  · exact ⟨List.mem_of_elem_eq_true rfl, fun _ => ⟨d, rfl⟩⟩

/-- Each member that is taken makes its field present. -/
theorem takes_presence {last : Draft I P} {ms : List (String × Value)}
    (h : (format I P).Takes depth acc ms last) (hknown : ∀ m ∈ ms, Known m) :
    last.payload.isSome = (acc.payload.isSome || ms.any (·.1 == "payload")) ∧
      last.err.join.isSome = (acc.err.join.isSome || ms.any (·.1 == "err")) := by
  induction h with
  | nil acc => simp
  | cons hfield hstep hread hmore ih =>
    obtain ⟨hpayload, herr⟩ := ih fun m hm => hknown m (List.mem_cons_of_mem _ hm)
    have hhead := hknown _ List.mem_cons_self
    rw [field_of_mem hhead.1] at hfield
    cases hfield
    obtain ⟨hpayload', herr'⟩ := fieldStep_presence hstep hhead.err hread
    rw [idxOf_payload _ hhead.1] at hpayload'
    rw [idxOf_err _ hhead.1] at herr'
    rw [hpayload, herr, hpayload', herr', List.any_cons, List.any_cons, Bool.or_assoc,
      Bool.or_assoc]
    exact ⟨rfl, rfl⟩

theorem any_member (name k : String) (value : Option Value) :
    (member name value).any (·.1 == k) = (name == k && value.isSome) := by
  cases value <;> simp [member]

/-- **A payload and a failure are found just when they were written**, whatever types they
are decoded as. -/
theorem decode_presence [ReadsWhole I] [ReadsWhole P] {e : Envelope Value Value} {text : String}
    (hencode : encode e = .ok text) {e' : Envelope I P}
    (h : decode (Envelope I P) text = .ok e') :
    e'.payload.isSome = e.payload.isSome ∧ e'.err.isSome = e.err.isSome := by
  rw [encode_eq] at hencode
  cases hencode
  obtain ⟨rest, hread⟩ := decode_read h
  rw [chars_toList, ← List.append_nil e.toValue.chars] at hread
  have hknows : (format I P).Knows 126 (e.members e.input e.payload) := by
    intro m hm
    have hknown := members_known m hm
    exact ⟨_, field_of_mem hknown.1, fun acc value hstep rest hrest =>
      fieldStep_ends hstep hknown.err hrest⟩
  obtain ⟨last, htakes, hfinish⟩ := RecordFormat.read_takes hknows hread
  obtain ⟨hpayload, herr⟩ := takes_presence htakes members_known
  simp only [format] at hfinish
  split at hfinish
  · cases hfinish
  · cases hfinish
    rw [hpayload, herr]
    simp [members, any_member, format]

/-- What keeps to a lane is found to keep to it, by whoever decodes and consumes it. -/
theorem fits_of_decode [ReadsWhole I] [ReadsWhole P] {e : Envelope Value Value} {text : String}
    {lane : Lane} (hfits : e.fits lane = true) (hencode : encode e = .ok text)
    {e' : Envelope I P} (h : decode (Envelope I P) text = .ok e') (now : Timestamp) :
    (e'.consume now).fits lane = true := by
  obtain ⟨hpayload, herr⟩ := decode_presence hencode h
  simp only [fits, consume, ← Option.not_isSome, hpayload, herr] at hfits ⊢
  exact hfits

end Envelope

/-- What is written for a lane fits it for everybody who reads it. -/
theorem Written.fits {I P : Type} [Decode I] [Decode P] [ReadsWhole I] [ReadsWhole P]
    {p : Provenance} {r : Outgoing} (h : Written p r) {lane : Lane} {topic : String}
    (haddress : r.address = lane.address topic) {e : Envelope I P}
    (hdecode : decode (Envelope I P) r.payload = .ok e) (now : Timestamp) :
    (e.consume now).fits lane = true := by
  cases h with
  | intro lane' topic' payload e' hfits hconsumed hplugin hversion hhost hpayload =>
    obtain ⟨rfl, rfl⟩ := Lane.address_inj.mp haddress
    exact Envelope.fits_of_decode hfits hpayload hdecode now

/-! ## The error lanes -/

section

variable {σ U T : Type} [Encode U] [Encode T]

namespace Session

/-- What comes of a request to publish a value on a lane of a topic leaves the error lanes
of all topics as they were; a running client refuses the error lane without any effect. -/
structure SparesErrors (x : Session σ) (topic : String) (lane : Lane)
    (result : Except BusError Unit × Session σ) : Prop where
  logs : ∀ t, result.2.broker.log (Lane.error.address t) = x.broker.log (Lane.error.address t)
  refused : x.client.stopped = false → lane = .error →
    result = (.error (.errorLaneReserved topic), x)

theorem sendWrapped_sparesErrors (x : Session σ) (now : Timestamp) (input : Option U) (value : T)
    (topic : String) (lane : Lane) : x.SparesErrors topic lane
      (x.sendWrapped (Outgoing.ofValue x.client.provenance now input value topic lane)) := by
  constructor
  · intro t
    cases hwrapped : Outgoing.ofValue x.client.provenance now input value topic lane with
    | error e => rfl
    | ok r =>
      have haddress := (Outgoing.ofValue_written hwrapped).2 t
      simp only [sendWrapped, send, Connection.send]
      split
      · rfl
      · rename_i hsend
        split at hsend
        · cases hsend
        · cases hsend
          rw [Broker.log_append, if_neg haddress]
  · rintro - rfl
    rw [Outgoing.ofValue_error rfl]
    rfl

theorem publish_sparesErrors (x : Session σ) (now : Timestamp) (value : T) (topic : String)
    (lane : Lane) : x.SparesErrors topic lane (x.publish now value topic lane) := by
  unfold publish
  split
  · rename_i hstopped
    exact ⟨fun _ => rfl, fun hrunning => by rw [hstopped] at hrunning; cases hrunning⟩
  · exact x.sendWrapped_sparesErrors now (none : Option Value) value topic lane

theorem publishDerived_sparesErrors (x : Session σ) (now : Timestamp) (input : U) (value : T)
    (topic : String) (lane : Lane) :
    x.SparesErrors topic lane (x.publishDerived now input value topic lane) := by
  unfold publishDerived
  split
  · rename_i hstopped
    exact ⟨fun _ => rfl, fun hrunning => by rw [hstopped] at hrunning; cases hrunning⟩
  · exact x.sendWrapped_sparesErrors now (some input) value topic lane

end Session

namespace Outbox

/-- What comes of a request to queue a value for a lane of a topic is one more record, but
none for an error lane; the error lane is refused. -/
structure SparesErrors (o : Outbox) (topic : String) (lane : Lane)
    (result : Except BusError Outbox) : Prop where
  pending : ∀ o', result = .ok o' → ∃ r, o' = { o with pending := o.pending ++ [r] } ∧
    ∀ t, r.address ≠ Lane.error.address t
  refused : lane = .error → result = .error (.errorLaneReserved topic)

theorem publish_sparesErrors (o : Outbox) (value : T) (topic : String) (lane : Lane) :
    o.SparesErrors topic lane (o.publish value topic lane) := by
  constructor
  · intro o' ho'
    obtain ⟨r, heq, -, haddress⟩ := publish_written ho'
    exact ⟨r, heq, haddress⟩
  · rintro rfl
    rw [publish, Outgoing.ofValue_error rfl]

theorem publishDerived_sparesErrors (o : Outbox) (input : U) (value : T) (topic : String)
    (lane : Lane) : o.SparesErrors topic lane (o.publishDerived input value topic lane) := by
  constructor
  · intro o' ho'
    obtain ⟨r, heq, -, haddress⟩ := publishDerived_written ho'
    exact ⟨r, heq, haddress⟩
  · rintro rfl
    rw [publishDerived, Outgoing.ofValue_error rfl]

end Outbox

end

/-- A relay only queues. -/
theorem Relay.callback_honest {σ : Type} (output : String) :
    (Relay.callback output : Callback σ Value Value).Honest := by
  intro e lane o state
  unfold callback
  split
  · rename_i o' hforward
    unfold forward at hforward
    split at hforward
    · cases hforward
    · cases hforward
    · split at hforward
      · rename_i hpublish
        cases hforward
        exact .publishDerived _ _ _ _ .refl hpublish
      · cases hforward
  · exact .refl

/-! ## The lane invariant -/

/-- **Records keep to their lanes.**  Along every run of honest clients, whatever a client
appends is written: an envelope that fits the lane of its address, is not consumed and names
its producer.  What publishes values never reaches an error lane.  And what is written for a
lane fits it for every consumer and monitor that can decode it. -/
theorem Bus.lanes_kept {σ : Type} :
    (∀ (broker : Broker) (state : σ) (actions : List (Action σ)),
      (∀ action ∈ actions, action.Honest) → ({ broker, state } : Bus σ).Along Writes actions) ∧
    (∀ {U T : Type} [Encode U] [Encode T] (input : U) (value : T) (topic : String) (lane : Lane),
      (∀ (x : Session σ) now, x.SparesErrors topic lane (x.publish now value topic lane) ∧
        x.SparesErrors topic lane (x.publishDerived now input value topic lane)) ∧
      ∀ o : Outbox, o.SparesErrors topic lane (o.publish value topic lane) ∧
        o.SparesErrors topic lane (o.publishDerived input value topic lane)) ∧
    (∀ p r, Written p r → ∀ (lane : Lane) topic, r.address = lane.address topic →
      ∀ {I P : Type} [Decode I] [Decode P] [ReadsWhole I] [ReadsWhole P] (e : Envelope I P),
        decode (Envelope I P) r.payload = .ok e → ∀ now, (e.consume now).fits lane = true) := by
  refine ⟨fun broker state actions hactions => ?_, ?_, ?_⟩
  · have hhonest : ({ broker, state } : Bus σ).Honest := fun m hm => by cases hm
    exact along_writes (sound_of_no_members broker state) hhonest hactions
  · intro U T _ _ input value topic lane
    exact ⟨fun x now => ⟨x.publish_sparesErrors now value topic lane,
        x.publishDerived_sparesErrors now input value topic lane⟩,
      fun o => ⟨o.publish_sparesErrors value topic lane,
        o.publishDerived_sparesErrors input value topic lane⟩⟩
  · intro p r hwritten lane topic haddress I P _ _ _ _ e hdecode now
    exact hwritten.fits haddress hdecode now

/-- A relay that forwards a record is honest.  What its client writes for a lane is found to
keep to it, and it is refused the error lane. -/
theorem Bus.lanes_kept_relayed :
    let now : Timestamp := ⟨2024, 1, 1, 0, 0, 0, 0⟩
    let identity : Identity := { url := "memory://b", group := "g", client := "c" }
    let provenance : Provenance := { plugin := "p", version := "1", host := "h" }
    let actions : List (Action Unit) := [
      .connect identity provenance ⟨id, fun _ => .refl _⟩,
      .ask 0 now (.subscribe "in" (Relay.callback "out")),
      .append "in-NORMAL" "\x7b\"created_at\":\"2024-01-01T00:00:00Z\",\"payload\":1\x7d",
      .ask 0 now .poll]
    let x : Session Unit := {
      client := { identity, provenance, connection := { identity } }
      broker := {}
      state := () }
    let e : Envelope Value Value := (Envelope.origin now (Value.bool true)).stamped provenance
    (∀ action ∈ actions, action.Honest) ∧ ({ state := () } : Bus Unit).Along Writes actions ∧
      ((run { state := () } actions).broker.log "out-NORMAL").length = 1 ∧
      x.publish now true "out" .error = (.error (.errorLaneReserved "out"), x) ∧
      Written provenance { address := "out-NORMAL", payload := e.toValue.text } ∧
      decode (Envelope Value Value) e.toValue.text = .ok e ∧
      (e.consume now).fits .normal = true := by
  intro now identity provenance actions x e
  have hhonest : ∀ action ∈ actions, action.Honest := by
    simp only [actions, List.forall_mem_cons, List.not_mem_nil, false_implies, implies_true,
      and_true]
    exact ⟨trivial, Relay.callback_honest "out", trivial, trivial⟩
  obtain ⟨halong, hspares, hfits⟩ := lanes_kept (σ := Unit)
  refine ⟨hhonest, halong {} () actions hhonest, by decide +kernel,
    ((hspares (none : Option Value) true "out" .error).1 x now).1.refused rfl rfl, ?_⟩
  have hwritten : Written provenance { address := "out-NORMAL", payload := e.toValue.text } :=
    .intro .normal "out" e.toValue.text e rfl rfl rfl rfl rfl rfl
  have hsound : e.Sound :=
    ⟨by decide, fun t ht => (by cases ht), fun v hv => (by cases hv), fun v hv => by
      cases hv
      trivial⟩
  have hread : decode (Envelope Value Value) e.toValue.text = .ok e :=
    Envelope.decode_text hsound (by decide +kernel)
  exact ⟨hwritten, hread, hfits provenance _ hwritten .normal "out" rfl e hread now⟩

end LaneBus
