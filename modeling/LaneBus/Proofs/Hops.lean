import LaneBus.Plugin.Relay
import LaneBus.Proofs.Capture
import LaneBus.Proofs.Envelopes

/-! # Envelopes from hop to hop

A client that reacts to an envelope wraps it: what it publishes has the envelope as
its input, and so has the report when its callback fails.  Both nest one deeper
than the envelope (`Envelope.answer_nesting`, `Envelope.report_nesting`), and
readers accept only so many brackets.  So whoever reads the address that a reaction
was sent to hears it exactly when there is a bracket to spare, and every hop of a
pipeline uses one up (`reaction_heard_iff`); a pipeline ends when they are used up
(`exists_piped_iff`).  An envelope without brackets to spare is read all the same,
and what is made of it is lost (`deepest_unheard`).
-/
namespace LaneBus

open Json

/-! ## What a reaction nests -/

namespace Envelope

variable {e : Envelope Value Value} {t : Timestamp}

theorem consume_sound (h : e.Sound) (ht : t.Valid) : (e.consume t).Sound where
  created := h.created
  consumed := by
    rintro s ⟨⟩
    cases hconsumed : e.consumedAt with
    | none => exact ht
    | some s => exact h.consumed s hconsumed
  input := h.input
  payload := h.payload

/-- Consumption does not count. -/
theorem consume_nesting (e : Envelope Value Value) (t : Timestamp) :
    (e.consume t).nesting = e.nesting := by
  rw [nesting_eq, nesting_eq]
  rfl

theorem reread_elim_nesting {x : Option Value} (h : ∀ v, x = some v → v.Sound) :
    (x.map Value.reread).elim 0 Value.nesting = x.elim 0 Value.nesting := by
  cases x with
  | none => rfl
  | some v => exact Value.normalize_nesting Number.reread v (h v rfl)

/-- What is read for the text of an envelope nests as deep. -/
theorem reread_nesting (h : e.Sound) : e.reread.nesting = e.nesting := by
  rw [nesting_eq, nesting_eq]
  show max ((e.input.map Value.reread).elim 0 Value.nesting)
    (max ((e.payload.map Value.reread).elim 0 Value.nesting) _) + 1 = _
  rw [reread_elim_nesting h.input, reread_elim_nesting h.payload]
  rfl

theorem payload_nesting_lt {payload : Value} (h : e.payload = some payload) :
    payload.nesting < e.nesting := by
  rw [nesting_eq, h, Option.elim_some]
  omega

/-- What a client publishes of the payload of an envelope, derived from it. -/
def answer (e : Envelope Value Value) (p : Provenance) (now : Timestamp) (payload : Value) :
    Envelope Value Value :=
  (derived now e.toValue payload).stamped p

/-- What a client reports of a failure about an envelope. -/
def report (e : Envelope Value Value) (p : Provenance) (now : Timestamp) (f : Failure) :
    Envelope Value Value :=
  (failed now (some e.toValue.canonical) f.details).stamped p

theorem answer_sound {payload : Value} (h : e.Sound) (hpayload : e.payload = some payload)
    (p : Provenance) (ht : t.Valid) : (e.answer p t payload).Sound where
  created := ht
  consumed := by rintro s ⟨⟩
  input := by
    rintro v ⟨⟩
    exact toValue_sound h
  payload := by
    rintro v ⟨⟩
    exact h.payload payload hpayload

theorem report_sound (h : e.Sound) (p : Provenance) (ht : t.Valid) (f : Failure) :
    (e.report p t f).Sound where
  created := ht
  consumed := by rintro s ⟨⟩
  input := by
    rintro v ⟨⟩
    rw [Value.canonical_eq]
    exact Value.normalize_sound (fun _ hn => hn) _ (toValue_sound h)
  payload := by rintro v ⟨⟩

/-- **An answer nests one deeper** than the envelope it is derived from. -/
theorem answer_nesting {payload : Value} (hpayload : e.payload = some payload) (p : Provenance)
    (now : Timestamp) : (e.answer p now payload).nesting = e.nesting + 1 := by
  -- the payload is already inside the input
  have hlt := payload_nesting_lt hpayload
  rw [nesting_eq]
  show max e.nesting (max payload.nesting 0) + 1 = e.nesting + 1
  omega

/-- **A report nests one deeper** than the envelope it is about. -/
theorem report_nesting (h : e.Sound) (p : Provenance) (now : Timestamp) (f : Failure) :
    (e.report p now f).nesting = e.nesting + 1 := by
  have hcanonical : e.toValue.canonical.nesting = e.nesting := by
    rw [Value.canonical_eq, Value.normalize_nesting id _ (toValue_sound h), nesting]
  have hpos : 0 < e.nesting := by
    rw [nesting_eq]
    omega
  rw [nesting_eq]
  show max e.toValue.canonical.nesting (max 0 1) + 1 = e.nesting + 1
  omega

end Envelope

theorem Envelope.toJson_derived (e : Envelope Value Value) (p : Provenance) (now : Timestamp)
    (payload : Value) :
    Encode.toJson ((derived now e payload : Envelope (Envelope Value Value) Value).stamped p) =
      .ok (e.answer p now payload).toValue := by
  have hinput : encoded (some e) = .ok (some e.toValue) := by
    rw [encoded, toJson_eq]
    rfl
  have hpayload : encoded (some payload) = .ok (some payload) := rfl
  simp only [Encode.toJson, derived, stamped, hinput, hpayload]
  rfl

/-- A payload is published as an answer, by a callback or by a client. -/
theorem Outgoing.ofValue_eq (e : Envelope Value Value) (p : Provenance) (now : Timestamp)
    (payload : Value) (topic : String) {lane : Lane} (hlane : lane.isError = false) :
    ofValue p now (some e) payload topic lane =
      .ok { address := lane.address topic, payload := (e.answer p now payload).toValue.text } := by
  rw [ofValue, hlane, if_neg Bool.false_ne_true]
  simp only
  rw [ofEnvelope, encode, Envelope.toJson_derived]
  rfl

theorem Session.publishDerived_eq {σ : Type} {x : Session σ} (hstopped : x.client.stopped = false)
    (e : Envelope Value Value) (now : Timestamp) (payload : Value) (topic : String) {lane : Lane}
    (hlane : lane.isError = false) :
    x.publishDerived now e payload topic lane = x.send {
      address := lane.address topic
      payload := (e.answer x.client.provenance now payload).toValue.text } := by
  rw [publishDerived, hstopped, if_neg Bool.false_ne_true, Outgoing.ofValue_eq _ _ _ _ _ hlane]
  rfl

theorem Outbox.publishDerived_eq (o : Outbox) (e : Envelope Value Value) (payload : Value)
    (topic : String) {lane : Lane} (hlane : lane.isError = false) :
    o.publishDerived e payload topic lane = .ok { o with
      pending := o.pending ++ [{
        address := lane.address topic
        payload := (e.answer o.provenance o.now payload).toValue.text }] } := by
  rw [publishDerived, Outgoing.ofValue_eq _ _ _ _ _ hlane]

/-- A failure is reported as a report. -/
theorem defaultReport_eq {σ : Type} (e : Envelope Value Value) (p : Provenance) (now : Timestamp)
    (f : Failure) (raw : String) (state : σ) :
    (defaultReport p now (some e) f raw state).1 = .ok (e.report p now f).toValue.text := by
  show reportText p now (some e) f raw = _
  rw [reportText, Envelope.toJson_eq]
  exact Envelope.encode_eq _

/-! ## Who hears a text -/

/-- What a callback keeps, and the report of its failure if it fails. -/
def Callback.keeps {σ I P : Type} (callback : Callback σ I P) (report : Reporter σ I P)
    (e : Envelope I P) (lane : Lane) (o : Outbox) (raw : String) (state : σ) : σ :=
  let (outcome, _, after) := callback e lane o state
  match outcome.failure? with
  | none => after
  | some f => (report (some e) f raw after).2

/-- A text on a lane is **heard by consumers**: it can be read, and every client that
consumes a topic hands it to its callback. -/
def HeardByConsumers (lane : Lane) (text : String) : Prop :=
  ∃ e, decode (Envelope Value Value) text = .ok e ∧
    ∀ {σ : Type} (x : Session σ) (topic : String) (callback : Callback σ Value Value)
      (report : Provenance → Timestamp → Reporter σ Value Value) (offset : Nat) (now : Timestamp),
      x.client.Consumes topic (.consumer callback report) →
        (x.dispatch now ⟨lane.address topic, offset, text⟩).2.state =
          callback.keeps (report x.client.provenance now) (e.consume now) lane (x.emptyOutbox now)
            text x.state

/-- A text on an error lane is **heard by monitors**: it can be read, and every client
that monitors a topic hands it to its callback. -/
def HeardByMonitors (text : String) : Prop :=
  ∃ e, decode (Envelope Value Value) text = .ok e ∧
    ∀ {σ : Type} (x : Session σ) (topic : String) (callback : MonitorCallback σ) (offset : Nat)
      (now : Timestamp), x.client.Monitors topic callback →
        (x.dispatch now ⟨Lane.error.address topic, offset, text⟩).2.state =
          (callback (e.consume now) x.state).2.2

/-- A callback decides what is kept of a text that can be read and fits the lane. -/
theorem Handler.consumer_state {σ : Type} {callback : Callback σ Value Value}
    (report : Provenance → Timestamp → Reporter σ Value Value) {r : Record} {lane : Lane}
    {o : Outbox} (state : σ) {e : Envelope Value Value}
    (hread : decode (Envelope Value Value) r.payload = .ok e)
    (hfits : (e.consume o.now).fits lane = true) :
    (Handler.consumer callback report r lane o state).state =
      callback.keeps (report o.provenance o.now) (e.consume o.now) lane o r.payload state := by
  rcases hcall : callback (e.consume o.now) lane o state with ⟨outcome, outbox, after⟩
  simp only [Handler.consumer, Callback.keeps, hread, hfits, hcall]
  cases outcome <;> rfl

theorem Handler.monitor_state {σ : Type} {callback : MonitorCallback σ} {r : Record} (lane : Lane)
    {o : Outbox} (state : σ) {e : Envelope Value Value}
    (hread : decode (Envelope Value Value) r.payload = .ok e)
    (hfits : (e.consume o.now).fits .error = true) :
    (Handler.monitor callback r lane o state).state = (callback (e.consume o.now) state).2.2 := by
  rcases hcall : callback (e.consume o.now) state with ⟨outcome, events, after⟩
  simp only [Handler.monitor, hread, hfits, hcall]
  cases outcome <;> rfl

theorem heardByConsumers_of_decode {lane : Lane} (hlane : lane.isError = false) {text : String}
    {e : Envelope Value Value} (hread : decode (Envelope Value Value) text = .ok e)
    (hfits : e.fits lane = true) : HeardByConsumers lane text := by
  refine ⟨e, hread, ?_⟩
  intro σ x topic callback report offset now hconsumes
  rw [Session.dispatch_state (hconsumes lane hlane)]
  exact Handler.consumer_state report x.state hread hfits

theorem heardByMonitors_of_decode {text : String} {e : Envelope Value Value}
    (hread : decode (Envelope Value Value) text = .ok e) (hfits : e.fits .error = true) :
    HeardByMonitors text := by
  refine ⟨e, hread, ?_⟩
  intro σ x topic callback offset now hmonitors
  unfold Client.Monitors at hmonitors
  rw [Session.dispatch_state hmonitors]
  exact Handler.monitor_state .error x.state hread hfits

namespace Envelope

variable {e : Envelope Value Value}

theorem reread_fits (e : Envelope Value Value) (lane : Lane) :
    e.reread.fits lane = e.fits lane := by
  unfold fits reread
  simp only [Option.isNone_map]

/-- A sound envelope is heard by consumers unless it nests too deep. -/
theorem heardByConsumers_iff (h : e.Sound) {lane : Lane} (hlane : lane.isError = false)
    (hfits : e.fits lane = true) :
    HeardByConsumers lane e.toValue.text ↔ e.nesting ≤ maxDepth := by
  constructor
  · rintro ⟨e', hread, -⟩
    exact (decode_text_ok h hread).1
  · intro hn
    exact heardByConsumers_of_decode hlane (decode_text h hn) (by rw [reread_fits, hfits])

/-- A sound envelope is heard by monitors unless it nests too deep. -/
theorem heardByMonitors_iff (h : e.Sound) (hfits : e.fits .error = true) :
    HeardByMonitors e.toValue.text ↔ e.nesting ≤ maxDepth := by
  constructor
  · rintro ⟨e', hread, -⟩
    exact (decode_text_ok h hread).1
  · intro hn
    exact heardByMonitors_of_decode (decode_text h hn) (by rw [reread_fits, hfits])

/-- An answer is heard unless the envelope was as deep as a text may be. -/
theorem answer_heard_iff {payload : Value} (h : e.Sound) (hpayload : e.payload = some payload)
    (p : Provenance) {now : Timestamp} (hnow : now.Valid) {lane : Lane}
    (hlane : lane.isError = false) :
    HeardByConsumers lane (e.answer p now payload).toValue.text ↔ e.nesting < maxDepth := by
  have hfits : (e.answer p now payload).fits lane = true := by
    rw [fits, hlane, if_neg Bool.false_ne_true]
    rfl
  rw [heardByConsumers_iff (answer_sound h hpayload p hnow) hlane hfits, answer_nesting hpayload]
  exact Nat.add_one_le_iff

/-- A report is heard unless the envelope was as deep as a text may be. -/
theorem report_heard_iff (h : e.Sound) (p : Provenance) {now : Timestamp} (hnow : now.Valid)
    (f : Failure) : HeardByMonitors (e.report p now f).toValue.text ↔ e.nesting < maxDepth := by
  rw [heardByMonitors_iff (report_sound h p hnow f) rfl, report_nesting h]
  exact Nat.add_one_le_iff

end Envelope

/-! ## Pipelines -/

/-- `Piped text n mid`: from a record of `text`, a pipeline has come to a record of
`mid` after `n` hops.  A hop publishes the payload of the envelope that it reads,
derived from that envelope. -/
inductive Piped (text : String) : Nat → String → Prop where
  | start : Piped text 0 text
  | hop {n : Nat} {mid : String} {e : Envelope Value Value} {payload : Value} {seen : Timestamp}
      {o : Outbox} {topic : String} {lane : Lane} {r : Outgoing} (hmid : Piped text n mid)
      (hread : decode (Envelope Value Value) mid = .ok e) (hpayload : e.payload = some payload)
      (hseen : seen.Valid) (hnow : o.now.Valid)
      (hout : o.publishDerived (e.consume seen) payload topic lane =
        .ok { o with pending := o.pending ++ [r] }) :
      Piped text (n + 1) r.payload

/-- What is published without refusal is an answer. -/
theorem Outbox.publishDerived_ok {o : Outbox} {e : Envelope Value Value} {payload : Value}
    {topic : String} {lane : Lane} {r : Outgoing}
    (h : o.publishDerived e payload topic lane = .ok { o with pending := o.pending ++ [r] }) :
    r.payload = (e.answer o.provenance o.now payload).toValue.text := by
  cases hlane : lane.isError with
  | true =>
    rw [publishDerived, Outgoing.ofValue, hlane, if_pos rfl] at h
    cases h
  | false =>
    rw [o.publishDerived_eq e payload topic hlane] at h
    have hpending := congrArg Outbox.pending (Except.ok.inj h)
    rw [← List.singleton_inj.1 (List.append_cancel_left hpending)]

/-- **Every hop adds one** to the nesting of what is read. -/
theorem Piped.nesting {text mid : String} {n : Nat} (h : Piped text n mid)
    {e e' : Envelope Value Value} (hread : decode (Envelope Value Value) text = .ok e)
    (hmid : decode (Envelope Value Value) mid = .ok e') : e'.nesting = e.nesting + n := by
  induction h generalizing e' with
  | start =>
    obtain rfl : e = e' := Except.ok.inj (hread.symm.trans hmid)
    rfl
  | @hop n mid e₁ payload seen o topic lane r _ hread₁ hpayload hseen hnow hout ih =>
    obtain ⟨hsound, -⟩ := Envelope.decode_sound hread₁
    have hconsumed := Envelope.consume_sound hsound hseen
    have hanswer := Envelope.answer_sound hconsumed hpayload o.provenance hnow
    have hnesting := Envelope.answer_nesting (e := e₁.consume seen) hpayload o.provenance o.now
    rw [Outbox.publishDerived_ok hout] at hmid
    obtain ⟨-, rfl⟩ := Envelope.decode_text_ok hanswer hmid
    rw [Envelope.reread_nesting hanswer, hnesting, Envelope.consume_nesting, ih hread₁]
    rfl

/-- **A pipeline gets as far as there are brackets to spare**, and no further. -/
theorem exists_piped_iff {text : String} {e : Envelope Value Value}
    (hread : decode (Envelope Value Value) text = .ok e) (hpayload : e.payload.isSome = true)
    (n : Nat) :
    (∃ mid e', Piped text n mid ∧ decode (Envelope Value Value) mid = .ok e') ↔
      e.nesting + n ≤ maxDepth := by
  constructor
  · rintro ⟨mid, e', hpiped, hmid⟩
    rw [← hpiped.nesting hread hmid]
    exact (Envelope.decode_sound hmid).2
  · intro hfits
    -- a hop needs a payload, so the induction carries that there is one
    suffices h : ∃ mid e', Piped text n mid ∧ decode (Envelope Value Value) mid = .ok e' ∧
        e'.payload.isSome = true by
      obtain ⟨mid, e', hpiped, hmid, -⟩ := h
      exact ⟨mid, e', hpiped, hmid⟩
    induction n with
    | zero => exact ⟨text, e, .start, hread, hpayload⟩
    | succ n ih =>
      obtain ⟨mid, e', hpiped, hmid, hsome⟩ := ih (by omega)
      obtain ⟨payload, hpayload⟩ := Option.isSome_iff_exists.1 hsome
      obtain ⟨hsound, -⟩ := Envelope.decode_sound hmid
      -- the time at which the envelope was made will do for the hop
      have hvalid := hsound.created
      have hconsumed := Envelope.consume_sound hsound hvalid
      let o : Outbox := { provenance := ⟨"", "", ""⟩, now := e'.createdAt }
      have hanswer := Envelope.answer_sound hconsumed hpayload o.provenance hvalid
      have hadds := Envelope.answer_nesting (e := e'.consume e'.createdAt) hpayload o.provenance
        o.now
      rw [Envelope.consume_nesting, hpiped.nesting hread hmid] at hadds
      have hnesting := Nat.le_trans (Nat.le_of_eq hadds) hfits
      exact ⟨_, _, .hop hpiped hmid hpayload hvalid hvalid
        (o.publishDerived_eq _ payload "" (show Lane.normal.isError = false from rfl)),
        Envelope.decode_text hanswer hnesting, rfl⟩

/-- **Reactions are heard** as long as they nest no deeper than a text may, on any hop:
what is published of the payload of an envelope, derived from that envelope, by the
consumers of the topic, and the report of a failure about it by the monitors. -/
theorem reaction_heard_iff {text mid : String} {e e' : Envelope Value Value} {n : Nat}
    {o : Outbox} {seen : Timestamp} (hread : decode (Envelope Value Value) text = .ok e)
    (hpiped : Piped text n mid) (hmid : decode (Envelope Value Value) mid = .ok e')
    (hseen : seen.Valid) (hnow : o.now.Valid) :
    (∀ payload topic lane, e'.payload = some payload → lane.isError = false →
      ∃ r, r.address = lane.address topic ∧
        o.publishDerived (e'.consume seen) payload topic lane =
          .ok { o with pending := o.pending ++ [r] } ∧
        (∀ {σ : Type} (x : Session σ), x.client.stopped = false →
          x.client.provenance = o.provenance →
          x.publishDerived o.now (e'.consume seen) payload topic lane = x.send r) ∧
        (HeardByConsumers lane r.payload ↔ e.nesting + n < maxDepth)) ∧
    ∀ {σ : Type} (callback : Callback σ Value Value) (r : Record) (lane : Lane) (state : σ)
      (f : Failure) (after : σ), r.payload = mid →
        Rejects callback mid lane o state (some (e'.consume o.now)) f after →
        ∃ report,
          (Handler.consumer callback defaultReport r lane o state).delivery =
            .rejected f report ∧
          (HeardByMonitors report ↔ e.nesting + n < maxDepth) := by
  obtain ⟨hsound, -⟩ := Envelope.decode_sound hmid
  have hnesting (t : Timestamp) : (e'.consume t).nesting = e.nesting + n := by
    rw [Envelope.consume_nesting, hpiped.nesting hread hmid]
  constructor
  · intro payload topic lane hpayload hlane
    have hheard := Envelope.answer_heard_iff (Envelope.consume_sound hsound hseen) hpayload
      o.provenance hnow hlane
    rw [hnesting] at hheard
    refine ⟨_, rfl, o.publishDerived_eq _ payload topic hlane, ?_, hheard⟩
    intro σ x hstopped hprovenance
    rw [Session.publishDerived_eq hstopped _ o.now payload topic hlane, hprovenance]
  · rintro σ callback r lane state f after rfl hrejects
    have hheard := Envelope.report_heard_iff (Envelope.consume_sound hsound hnow) o.provenance
      hnow f
    rw [hnesting] at hheard
    exact ⟨_, hrejects.delivery (defaultReport_eq _ o.provenance o.now f r.payload after), hheard⟩

/-- The payload of a shallow text is heard by consumers, and a failure about it by
monitors. -/
theorem reaction_heard_of_shallow :
    let now : Timestamp := ⟨2024, 1, 1, 0, 0, 0, 0⟩
    let o : Outbox := { provenance := { plugin := "p", version := "1", host := "h" }, now }
    let e : Envelope Value Value := { createdAt := now, payload := some (.bool true) }
    let text := "\x7b\"created_at\":\"2024-01-01T00:00:00Z\",\"payload\":true\x7d"
    let f : Failure := { kind := "Busy", message := "later" }
    let callback : Callback Unit Value Value := fun _ _ outbox state => (.failed f, outbox, state)
    (∃ r, o.publishDerived (e.consume now) (Value.bool true) "out" .normal =
        .ok { o with pending := [r] } ∧ HeardByConsumers .normal r.payload) ∧
      ∃ report,
        (Handler.consumer callback defaultReport ⟨"in-NORMAL", 0, text⟩ .normal o ()).delivery =
          .rejected f report ∧
        HeardByMonitors report := by
  intro now o e text f callback
  have hread : decode (Envelope Value Value)
      "\x7b\"created_at\":\"2024-01-01T00:00:00Z\",\"payload\":true\x7d" =
      .ok { createdAt := ⟨2024, 1, 1, 0, 0, 0, 0⟩, payload := some (.bool true) } := by rfl
  have hvalid : o.now.Valid := by decide
  have hspare : e.nesting + 0 < maxDepth := by decide
  obtain ⟨hanswers, hreports⟩ := reaction_heard_iff (o := o) hread .start hread hvalid hvalid
  constructor
  · obtain ⟨r, -, hout, -, hheard⟩ := hanswers (.bool true) "out" .normal rfl rfl
    exact ⟨r, hout, hheard.2 hspare⟩
  · obtain ⟨report, hdelivery, hheard⟩ := hreports callback ⟨"in-NORMAL", 0, text⟩ .normal () f ()
      rfl (.failed e f o () hread rfl rfl)
    exact ⟨report, hdelivery, hheard.2 hspare⟩

/-! ## The deepest envelopes -/

/-- A relay publishes an answer. -/
theorem Relay.forward_eq {e : Envelope Value Value} {payload : Value} {lane : Lane}
    (hpayload : e.payload = some payload) (hnull : payload ≠ .null) (hlane : lane.isError = false)
    (o : Outbox) (output : String) :
    forward e lane o output = .ok { o with
      pending := o.pending ++ [{
        address := lane.address output
        payload := (e.answer o.provenance o.now payload).toValue.text }] } := by
  unfold forward
  rw [hpayload]
  split
  · rename_i heq
    cases heq
  · rename_i heq
    exact absurd (Option.some.inj heq) hnull
  · rename_i heq
    obtain rfl := Option.some.inj heq
    rw [o.publishDerived_eq e payload output hlane]

/-- Brackets around brackets. -/
def brackets : Nat → Value
  | 0 => .array []
  | n + 1 => .array [brackets n]

theorem brackets_nesting (n : Nat) : (brackets n).nesting = n + 1 := by
  induction n with
  | zero => rfl
  | succ n ih =>
    rw [brackets, Value.nesting, Value.itemsNesting, Value.itemsNesting, ih, Nat.max_zero]

theorem brackets_sound (n : Nat) : (brackets n).Sound := by
  induction n with
  | zero => trivial
  | succ n ih => exact ⟨ih, trivial⟩

theorem brackets_reread (n : Nat) : (brackets n).reread = brackets n := by
  induction n with
  | zero => rfl
  | succ n ih =>
    rw [Value.reread] at ih
    rw [Value.reread, brackets, Value.normalize, Value.normalizeItems, Value.normalizeItems, ih]

theorem brackets_ne_null (n : Nat) : brackets n ≠ .null := by
  cases n <;> rintro ⟨⟩

/-- A time to make envelopes at. -/
def newYear : Timestamp := ⟨2024, 1, 1, 0, 0, 0, 0⟩

theorem newYear_valid : newYear.Valid := by decide

/-- An envelope around brackets. -/
def bracketed (n : Nat) : Envelope Value Value :=
  { createdAt := newYear, payload := some (brackets n) }

theorem bracketed_sound (n : Nat) : (bracketed n).Sound where
  created := newYear_valid
  consumed := by rintro t ⟨⟩
  input := by rintro v ⟨⟩
  payload := by
    rintro v ⟨⟩
    exact brackets_sound n

theorem bracketed_nesting (n : Nat) : (bracketed n).nesting = n + 2 := by
  rw [Envelope.nesting_eq]
  show max 0 (max (brackets n).nesting 0) + 1 = n + 2
  rw [brackets_nesting, Nat.max_zero, Nat.zero_max]

theorem bracketed_reread (n : Nat) : (bracketed n).reread = bracketed n := by
  show { bracketed n with payload := some (brackets n).reread } = bracketed n
  rw [brackets_reread]
  rfl

/-- **At the limit reactions are lost.**  An envelope as deep as a text may be is
read, and is forwarded by a relay or reported when a callback fails; but no consumer
hears what was forwarded, and no monitor hears the report. -/
theorem deepest_unheard :
    let o : Outbox :=
      { provenance := { plugin := "p", version := "1", host := "h" }, now := newYear }
    let f : Failure := { kind := "Busy", message := "later" }
    let callback : Callback Unit Value Value := fun _ _ outbox state => (.failed f, outbox, state)
    let text := (bracketed 125).toValue.text
    decode (Envelope Value Value) text = .ok (bracketed 125) ∧
      (∃ r, Relay.forward ((bracketed 125).consume newYear) .normal o "out" =
          .ok { o with pending := [r] } ∧
        r.address = Lane.normal.address "out" ∧ ¬HeardByConsumers .normal r.payload) ∧
      ∃ report,
        (Handler.consumer callback defaultReport ⟨"in-NORMAL", 0, text⟩ .normal o ()).delivery =
          .rejected f report ∧
        ¬HeardByMonitors report := by
  generalize hn : 125 = n
  have hdepth : n + 2 = maxDepth := by
    rw [← hn]
    rfl
  intro o f callback text
  have hread : decode (Envelope Value Value) text = .ok (bracketed n) := by
    rw [Envelope.decode_text (bracketed_sound n) (by rw [bracketed_nesting, hdepth]),
      bracketed_reread]
  have hsound := Envelope.consume_sound (bracketed_sound n) newYear_valid
  have hfull : ¬((bracketed n).consume newYear).nesting < maxDepth := by
    rw [Envelope.consume_nesting, bracketed_nesting, hdepth]
    exact Nat.lt_irrefl _
  have hpayload : ((bracketed n).consume newYear).payload = some (brackets n) := rfl
  refine ⟨hread, ?_, ?_⟩
  · have hforward := Relay.forward_eq hpayload (brackets_ne_null n)
      (show Lane.normal.isError = false from rfl) o "out"
    refine ⟨_, hforward, rfl, ?_⟩
    rw [Envelope.answer_heard_iff hsound hpayload o.provenance newYear_valid rfl]
    exact hfull
  · have hreport := defaultReport_eq ((bracketed n).consume newYear) o.provenance o.now f text ()
    have hrejects :
        Rejects callback text .normal o () (some ((bracketed n).consume newYear)) f () :=
      .failed (bracketed n) f o () hread rfl rfl
    have hdelivery := Rejects.delivery (r := ⟨"in-NORMAL", 0, text⟩) hrejects hreport
    refine ⟨_, hdelivery, ?_⟩
    rw [Envelope.report_heard_iff hsound o.provenance newYear_valid]
    exact hfull

end LaneBus
