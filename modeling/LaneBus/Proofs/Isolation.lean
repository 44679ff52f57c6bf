import LaneBus.Proofs.Dependence
import LaneBus.Proofs.Writing

/-! # Consumer groups

All groups of a bus share the logs, and nothing else.  Take any run and one of the groups,
and let the members of all other groups do nothing any more: only what they have appended
still comes in, at the same points (`Bus.only`).  **The group sees no difference**
(`Bus.run_groups_apart`): its members get the same answers, dispatch the same records, log
the same events and commit the same positions.

The proof relates the two runs step by step.  What counts for the group is the same in both
(`Bus.Alike`); an action of the group depends on nothing else (`Operation.perform_alike`), and
what another group does leaves all of it alone but for the logs (`Operation.perform_view`,
`Operation.perform_broker`).

What callbacks keep is one value for the whole bus, so it has to be said what belongs to whom:
the callbacks and error handlers of the group see a view of it and nothing else, and those of other
groups leave the view as it is (`Handler.Respects`).
-/
namespace LaneBus

open Json

variable {σ τ : Type}

/-! ## What belongs to whom -/

/-- A handler respects a view of what is kept: if the view is its own, it sees nothing else, and
if not, it leaves the view as it is. -/
def Handler.Respects (view : σ → τ) (own : Prop) (handler : Handler σ) : Prop :=
  (own → handler.Sees view) ∧ (¬own → handler.Spares view)

/-- A callback respects a view of what is kept. -/
def Callback.Respects {I P : Type} (view : σ → τ) (own : Prop) (callback : Callback σ I P) : Prop :=
  (own → callback.Sees view) ∧ (¬own → callback.Spares view)

/-- An error handler respects a view of what is kept. -/
def ErrorHandler.Respects {I P : Type} (view : σ → τ) (own : Prop) (onError : ErrorHandler σ I P) :
    Prop :=
  (own → onError.Sees view) ∧ (¬own → onError.Spares view)

/-- A monitor respects a view of what is kept. -/
def MonitorCallback.Respects (view : σ → τ) (own : Prop) (callback : MonitorCallback σ) : Prop :=
  (own → callback.Sees view) ∧ (¬own → callback.Spares view)

namespace Operation

/-- The callbacks that an operation registers, if any, respect a view of what is kept. -/
def Respects (view : σ → τ) (own : Prop) : Operation σ → Prop
  | subscribe _ callback => callback.Respects view own
  | subscribeWith _ callback onError => callback.Respects view own ∧ onError.Respects view own
  | subscribeErrors _ callback => callback.Respects view own
  | _ => True

theorem Respects.registration {view : σ → τ} {own : Prop} {op : Operation σ}
    (h : op.Respects view own) {topic : String} {kind : SubscriptionKind} {handler : Handler σ}
    (hop : op.registration? = some (topic, kind, handler)) : handler.Respects view own := by
  cases op with
  | subscribe t callback =>
    cases hop
    exact ⟨fun hown => (h.1 hown).consumer defaultReport_sees,
      fun hother => (h.2 hother).consumer defaultReport_spares⟩
  | subscribeWith t callback onError =>
    cases hop
    obtain ⟨hcallback, hhandler⟩ := h
    exact ⟨fun hown => (hcallback.1 hown).consumer (hhandler.1 hown).report,
      fun hother => (hcallback.2 hother).consumer (hhandler.2 hother).report⟩
  | subscribeErrors t callback =>
    cases hop
    exact ⟨fun hown => (h.1 hown).monitor, fun hother => (h.2 hother).monitor⟩
  | _ => cases hop

end Operation

/-- The handlers of a client respect what belongs to a group, and sending depends on nothing
but the logs. -/
structure Client.Respects (group : String) (view : σ → τ) (c : Client σ) : Prop where
  handlers : ∀ s ∈ c.subscriptions,
    s.handler.Respects view (c.connection.identity.group = group)
  sends : c.connection.outage.Local

namespace Bus

variable {group : String} {view : σ → τ} {b b' : Bus σ}

/-- What an action registers respects what belongs to a group, and what goes down does so by
what the logs are. -/
def KeepsApart (group : String) (view : σ → τ) (b : Bus σ) : Action σ → Prop
  | .ask i _ op => ∀ m, b.members[i]? = some m → op.Respects view (m.group = group)
  | .outage _ outage => outage.Local
  | _ => True

/-- All members respect what belongs to a group. -/
def Respects (group : String) (view : σ → τ) (b : Bus σ) : Prop :=
  ∀ m ∈ b.members, m.client.Respects group view

theorem Respects.apply (hs : b.Sound) (h : b.Respects group view) {action : Action σ}
    (haction : b.KeepsApart group view action) : (b.apply action).Respects group view := by
  refine forall_clients_apply hs h ?_ ?_ ?_ ?_
  · intro c hsubs _ houtage
    refine ⟨fun s hmem => ?_, ?_⟩
    · rw [hsubs] at hmem
      cases hmem
    · rw [houtage]
      exact fun _ _ _ => rfl
  · intro c c' hwiring hc
    refine ⟨fun s hmem => ?_, hwiring.outage ▸ hc.sends⟩
    rw [hwiring.subscriptions] at hmem
    rw [hwiring.identity]
    exact hc.handlers s hmem
  · rintro i outage m rfl hm
    exact ⟨hm.handlers, haction⟩
  · rintro i now op m topic kind handler rfl hm hop hc
    have hhandler := Operation.Respects.registration (haction m hm) hop
    refine ⟨fun s hmem => ?_, ?_⟩
    · rw [Client.register_connection]
      rcases Client.mem_subscriptions_register hmem with hnew | ⟨s', hs', hold⟩
      · exact hnew ▸ hhandler
      · exact hold ▸ hc.handlers s' hs'
    · rw [Client.register_connection]
      exact hc.sends

end Bus

/-! ## What has come in -/

namespace Broker

variable {b b' : Broker}

/-- The records that a later broker has in addition. -/
def gained (b b' : Broker) : List Outgoing :=
  b'.logs.keys.flatMap fun a =>
    ((b'.log a).drop (b.log a).length).map fun payload => { address := a, payload }

/-- Among the records of different addresses, those of one. -/
theorem filter_flatMap_outgoing (f : String → List String) (a : String) {keys : List String}
    (h : keys.Nodup) :
    (((keys.flatMap fun k => (f k).map fun payload => ({ address := k, payload } : Outgoing)).filter
      (·.address == a)).map Outgoing.payload) = if a ∈ keys then f a else [] := by
  induction keys with
  | nil => rfl
  | cons k rest ih =>
    obtain ⟨hfresh, hrest⟩ := List.nodup_cons.mp h
    rw [List.flatMap_cons, List.filter_append, List.map_append, ih hrest]
    by_cases hk : k = a
    · subst hk
      simp [hfresh, List.filter_map, Function.comp_def]
    · simp [hk, Ne.symm hk, List.filter_map, Function.comp_def]

/-- When logs only grow, what they gain is what a later broker has in addition. -/
theorem gains_gained (h : ∀ a, b.log a <+: b'.log a) : b.Gains (b.gained b') b' := by
  intro a
  obtain ⟨more, hmore⟩ := h a
  have hnodup : b'.logs.keys.Nodup := b'.logs.nodup
  rw [gained, filter_flatMap_outgoing _ a hnodup]
  by_cases ha : a ∈ b'.logs.keys
  · rw [if_pos ha, ← hmore, List.drop_left]
  · have hnil : b'.log a = [] := by
      rw [log, Table.get?, Table.valueAmong?_eq_none ha]
      rfl
    rw [if_neg ha, List.append_nil, hnil]
    rw [hnil] at hmore
    exact (List.append_eq_nil_iff.mp hmore).1.symm

theorem committedOffset_appendAll (b : Broker) (rs : List Outgoing) (group a : String) :
    (b.appendAll rs).committedOffset group a = b.committedOffset group a := by
  induction rs generalizing b with
  | nil => rfl
  | cons r rest ih => exact ih (b.append r.address r.payload)

end Broker

/-! ## What a group sees -/

/-- What a group sees of one operation of a member: how the operation ends, the records that
it dispatches and which of them it completes, what it logs, what becomes of the client and of
what callbacks keep, and what the group has committed. -/
structure Sighting (σ τ : Type) where
  member : Nat
  answer : Except BusError Nat
  attempts : List Attempt
  events : List Event
  client : Client σ
  kept : τ
  committed : String → Option Nat

namespace Bus

/-- What a group sees of an action. -/
def sighting? (group : String) (view : σ → τ) (b : Bus σ) : Action σ → Option (Sighting σ τ)
  | .ask i now op =>
    match b.members[i]? with
    | none => none
    | some m =>
      if m.group = group then
        let x := m.session b.broker b.state
        let y := op.perform now x
        some {
          member := i
          answer := op.answer now x
          attempts := op.attempts now x
          events := y.events
          client := y.client
          kept := view y.state
          committed := y.broker.committedOffset group }
      else none
  | _ => none

/-- What a group sees of a run. -/
def seen (group : String) (view : σ → τ) : Bus σ → List (Action σ) → List (Sighting σ τ)
  | _, [] => []
  | b, action :: rest =>
    (b.sighting? group view action).toList ++ seen group view (b.apply action) rest

/-- What is left of an action when the members of other groups do nothing: of theirs, the
records that they append. -/
def silenced (group : String) (b : Bus σ) (action : Action σ) : List (Action σ) :=
  match action with
  | .ask i now op =>
    match b.members[i]? with
    | none => [.ask i now op]
    | some m =>
      if m.group = group then [.ask i now op]
      else
        (b.broker.gained (b.apply (.ask i now op)).broker).map fun r =>
          .append r.address r.payload
  | action => [action]

/-- **What is left of a run when the members of other groups do nothing**: what they append
still comes in, at the same points. -/
def only (group : String) : Bus σ → List (Action σ) → List (Action σ)
  | _, [] => []
  | b, action :: rest => b.silenced group action ++ only group (b.apply action) rest

variable {group : String} {view : σ → τ} {b b' : Bus σ}

theorem seen_append (b : Bus σ) (earlier later : List (Action σ)) :
    b.seen group view (earlier ++ later) =
      b.seen group view earlier ++ (b.run earlier).seen group view later := by
  induction earlier generalizing b with
  | nil => rfl
  | cons action rest ih =>
    rw [List.cons_append, seen, seen, ih, List.append_assoc]
    rfl

theorem seen_appends (b : Bus σ) (rs : List Outgoing) :
    b.seen group view (rs.map fun r => .append r.address r.payload) = [] := by
  induction rs generalizing b with
  | nil => rfl
  | cons r rest ih => exact ih _

theorem run_appends (b : Bus σ) (rs : List Outgoing) :
    b.run (rs.map fun r => .append r.address r.payload) =
      { b with broker := b.broker.appendAll rs } := by
  induction rs generalizing b with
  | nil => rfl
  | cons r rest ih => exact ih _

end Bus

/-! ## Buses that are alike for a group -/

/-- The client of a member, if it is of a group. -/
def Member.ofGroup (group : String) (m : Member σ) : Option (Client σ) :=
  if m.group = group then some m.client else none

theorem Member.ofGroup_congr {group : String} {m m' : Member σ} (h : m'.client = m.client) :
    m'.ofGroup group = m.ofGroup group := by
  unfold ofGroup Member.group
  rw [h]

namespace Bus

/-- **Two buses are alike for a group**: they have the same logs, and in both the group has
committed the same, has the same clients, and the same is kept for it. -/
structure Alike (group : String) (view : σ → τ) (b b' : Bus σ) : Prop where
  log : ∀ a, b'.broker.log a = b.broker.log a
  committed : ∀ a, b'.broker.committedOffset group a = b.broker.committedOffset group a
  state : view b'.state = view b.state
  members : b'.members.map (Member.ofGroup group) = b.members.map (Member.ofGroup group)

namespace Alike

variable {group : String} {view : σ → τ} {b b' : Bus σ}

theorem refl (b : Bus σ) : b.Alike group view b :=
  ⟨fun _ => rfl, fun _ => rfl, rfl, rfl⟩

theorem getElem? (h : b.Alike group view b') (i : Nat) :
    b'.members[i]?.map (Member.ofGroup group) = b.members[i]?.map (Member.ofGroup group) := by
  rw [← List.getElem?_map, ← List.getElem?_map, h.members]

theorem absent (h : b.Alike group view b') {i : Nat} (hm : b.members[i]? = none) :
    b'.members[i]? = none := by
  have hsame := h.getElem? i
  rw [hm] at hsame
  exact Option.map_eq_none_iff.mp hsame

theorem member (h : b.Alike group view b') {i : Nat} {m : Member σ} (hm : b.members[i]? = some m) :
    ∃ m', b'.members[i]? = some m' ∧ m'.ofGroup group = m.ofGroup group := by
  have hsame := h.getElem? i
  rw [hm] at hsame
  exact Option.map_eq_some_iff.mp hsame

/-- A member of the group is at work on both. -/
theorem session (h : b.Alike group view b') {m m' : Member σ} (hgroup : m.group = group)
    (hclient : m'.client = m.client) :
    (m.session b.broker b.state).Alike view (m'.session b'.broker b'.state) where
  client := hclient
  log := h.log
  committed a := by
    have hcommitted := h.committed a
    rw [← hgroup] at hcommitted
    exact hcommitted
  state := h.state
  events := rfl

/-- Others come to be in the place of two members. -/
theorem set (h : b.Alike group view b') (i : Nat) {n n' : Member σ}
    (hn : n'.ofGroup group = n.ofGroup group) :
    (b'.members.set i n').map (Member.ofGroup group) =
      (b.members.set i n).map (Member.ofGroup group) := by
  rw [List.map_set, List.map_set, h.members, hn]

/-- Something comes in. -/
theorem append (h : b.Alike group view b') (address payload : String) :
    (b.apply (.append address payload)).Alike group view
      (b'.apply (.append address payload)) :=
  ⟨Connection.log_append_congr h.log address payload, h.committed, h.state, h.members⟩

theorem connect (h : b.Alike group view b') (identity : Identity) (provenance : Provenance)
    (itinerary : Itinerary) :
    (b.apply (.connect identity provenance itinerary)).Alike group view
      (b'.apply (.connect identity provenance itinerary)) := by
  cases hconnect : (Client.connect identity provenance : Except BusError (Client σ)) with
  | error e => simp only [apply, hconnect]; exact h
  | ok client =>
    simp only [apply, hconnect]
    refine ⟨h.log, h.committed, h.state, ?_⟩
    rw [List.map_append, List.map_append, h.members]

theorem outage (h : b.Alike group view b') (i : Nat) (outage : Outage) :
    (b.apply (.outage i outage)).Alike group view (b'.apply (.outage i outage)) := by
  cases hm : b.members[i]? with
  | none => simp only [apply, hm, h.absent hm]; exact h
  | some m =>
    obtain ⟨m', hm', hsame⟩ := h.member hm
    simp only [apply, hm, hm']
    have hdown (n : Member σ) : (n.withOutage outage).ofGroup group =
        (n.ofGroup group).map fun c =>
          { c with connection := { c.connection with outage := { outage with seek := false } } } := by
      show (if n.group = group then _ else _) = _
      rw [Member.ofGroup]
      split <;> rfl
    exact ⟨h.log, h.committed, h.state, h.set i (by rw [hdown, hdown, hsame])⟩

/-- A member of the group does something. -/
theorem ask (h : b.Alike group view b') (hs : b.Sound) (hr : b.Respects group view) {i : Nat}
    {m : Member σ} (hm : b.members[i]? = some m) (hgroup : m.group = group) (now : Timestamp)
    (op : Operation σ) :
    b'.sighting? group view (.ask i now op) = b.sighting? group view (.ask i now op) ∧
      (b.apply (.ask i now op)).Alike group view (b'.apply (.ask i now op)) := by
  obtain ⟨m', hm', hsame⟩ := h.member hm
  obtain ⟨hgroup', hclient⟩ : m'.group = group ∧ m'.client = m.client := by
    rw [Member.ofGroup, Member.ofGroup, if_pos hgroup] at hsame
    split at hsame
    · rename_i hgroup'
      exact ⟨hgroup', Option.some.inj hsame⟩
    · cases hsame
  have hmem := List.mem_of_getElem? hm
  have hwired := (hs.member m hmem).wired
  have hsees : (m.session b.broker b.state).Sees view :=
    ⟨fun s hmem' => ((hr m hmem).handlers s hmem').1 hgroup, (hr m hmem).sends⟩
  obtain ⟨hanswer, hattempts, hafter⟩ :=
    op.perform_alike (h.session hgroup hclient) hsees hwired now
  have hidentity := (op.perform_effect (x := m.session b.broker b.state) hwired now).identity
  have hcommitted (a : String) :
      (op.perform now (m'.session b'.broker b'.state)).broker.committedOffset group a =
        (op.perform now (m.session b.broker b.state)).broker.committedOffset group a := by
    have hsame := hafter.committed a
    rw [hidentity] at hsame
    rw [← hgroup]
    exact hsame
  constructor
  · simp only [sighting?, hm, hm', if_pos hgroup, if_pos hgroup', hanswer, hattempts,
      hafter.events, hafter.client, hafter.state, funext hcommitted]
  · simp only [apply, hm, hm']
    exact ⟨hafter.log, hcommitted, hafter.state, h.set i (Member.ofGroup_congr hafter.client)⟩

/-- A member of another group does something on one bus, and on the other bus only what it
has appended comes in. -/
theorem appended (h : b.Alike group view b') (hs : b.Sound) (hr : b.Respects group view) {i : Nat}
    {m : Member σ} (hm : b.members[i]? = some m) (hgroup : m.group ≠ group) (now : Timestamp)
    (op : Operation σ) :
    (b.apply (.ask i now op)).Alike group view (b'.run
      ((b.broker.gained (b.apply (.ask i now op)).broker).map fun r =>
        .append r.address r.payload)) := by
  have hmem := List.mem_of_getElem? hm
  have hsound := hs.member m hmem
  have hwired := hsound.wired
  have hspares : (m.session b.broker b.state).Spares view :=
    fun s hmem' => ((hr m hmem).handlers s hmem').2 hgroup
  have hbroker := op.perform_broker (x := m.session b.broker b.state) hwired now
  have hview := op.perform_view hwired hspares now
  have hafter : (m.after b.broker b.state now op).ofGroup group = none :=
    if_neg fun hsame => hgroup ((hsound.group_after b.broker b.state now op).symm.trans hsame)
  have hgains := Broker.gains_gained hbroker.log
  simp only [run_appends, apply, hm]
  refine ⟨fun a => ?_, fun a => ?_, ?_, ?_⟩
  · rw [b'.broker.gains_appendAll _ a, hgains a, h.log a]
    rfl
  · rw [Broker.committedOffset_appendAll, h.committed]
    rcases hbroker.committed group a with hsame | ⟨hown, -⟩
    · exact hsame.symm
    · exact absurd hown.symm hgroup
  · exact h.state.trans hview.symm
  · rw [h.members, List.map_set, hafter]
    refine (List.ext_getElem? fun j => ?_).symm
    rw [List.getElem?_set]
    by_cases hij : i = j
    · subst hij
      obtain ⟨hlt, -⟩ := List.getElem?_eq_some_iff.mp hm
      rw [if_pos rfl, List.length_map, if_pos hlt, List.getElem?_map, hm, Option.map_some,
        Member.ofGroup, if_neg hgroup]
    · rw [if_neg hij]

/-- **One action keeps buses alike**, and shows the group the same on both. -/
theorem step (h : b.Alike group view b') (hs : b.Sound) (hr : b.Respects group view)
    (action : Action σ) :
    b'.seen group view (b.silenced group action) = (b.sighting? group view action).toList ∧
      (b.apply action).Alike group view (b'.run (b.silenced group action)) := by
  cases action with
  | append address payload => exact ⟨rfl, h.append address payload⟩
  | connect identity provenance itinerary => exact ⟨rfl, h.connect identity provenance itinerary⟩
  | outage i outage => exact ⟨rfl, h.outage i outage⟩
  | ask i now op =>
    cases hm : b.members[i]? with
    | none =>
      have hm' := h.absent hm
      simp only [silenced, seen, sighting?, run, List.foldl, apply, hm, hm']
      exact ⟨rfl, h⟩
    | some m =>
      by_cases hgroup : m.group = group
      · obtain ⟨hsighting, hafter⟩ := h.ask hs hr hm hgroup now op
        have hsilenced : b.silenced group (.ask i now op) = [.ask i now op] := by
          simp only [silenced, hm, if_pos hgroup]
        rw [hsilenced, seen, seen, List.append_nil, hsighting]
        exact ⟨rfl, hafter⟩
      · have hafter := h.appended hs hr hm hgroup now op
        simp only [silenced, sighting?, hm, if_neg hgroup]
        exact ⟨seen_appends .., hafter⟩

/-- **A whole run keeps buses alike**, and shows the group the same on both. -/
theorem run (h : b.Alike group view b') (hs : b.Sound) (hr : b.Respects group view)
    {actions : List (Action σ)} (hactions : b.Along (KeepsApart group view) actions) :
    b'.seen group view (b.only group actions) = b.seen group view actions ∧
      (b.run actions).Alike group view (b'.run (b.only group actions)) := by
  induction actions generalizing b b' with
  | nil => exact ⟨rfl, h⟩
  | cons action rest ih =>
    obtain ⟨haction, hrest⟩ := hactions
    obtain ⟨hseen, hafter⟩ := h.step hs hr action
    obtain ⟨hseen', hafter'⟩ :=
      ih hafter ((b.step_apply action).sound hs) (hr.apply hs haction) hrest
    rw [only, seen_append, hseen, hseen', seen]
    refine ⟨rfl, ?_⟩
    rw [run_append]
    exact hafter'

end Alike

/-- **Consumer groups do not interfere.**  Whatever has happened on a bus, if the callbacks of
a group keep to a view of what is kept, and those of other groups leave it alone, then the
group would have seen the same, and committed the same, had the members of all other groups
done nothing but append what they have appended.  And logs are only ever appended to. -/
theorem run_groups_apart (broker : Broker) (state : σ) (actions : List (Action σ)) :
    (∀ (group : String) (view : σ → τ),
      ({ broker, state } : Bus σ).Along (KeepsApart group view) actions →
        let left := ({ broker, state } : Bus σ).only group actions
        ({ broker, state } : Bus σ).seen group view left =
            ({ broker, state } : Bus σ).seen group view actions ∧
          ∀ a, (run { broker, state } left).broker.committedOffset group a =
              (run { broker, state } actions).broker.committedOffset group a ∧
            (run { broker, state } left).broker.log a =
              (run { broker, state } actions).broker.log a) ∧
    ∀ earlier later, actions = earlier ++ later → ∀ a,
      (run { broker, state } earlier).broker.log a <+:
        (run { broker, state } actions).broker.log a := by
  have hs := sound_of_no_members broker state
  constructor
  · intro group view hactions left
    have hr : ({ broker, state } : Bus σ).Respects group view := fun m hm => by cases hm
    obtain ⟨hseen, hafter⟩ := (Alike.refl { broker, state }).run hs hr hactions
    exact ⟨hseen, fun a => ⟨hafter.committed a, hafter.log a⟩⟩
  · rintro earlier later rfl a
    rw [run_append]
    exact (run_evolves (run_sound hs earlier) later).log a

/-- A member of one group publishes, polls and commits before a member of another group does;
without it there is only the record that it has published. -/
theorem run_groups_apart_shared :
    let now : Timestamp := ⟨2024, 1, 1, 0, 0, 0, 0⟩
    let provenance : Provenance := { plugin := "p", version := "1", host := "h" }
    let own : Callback (Nat × Nat) Value Value := fun _ _ outbox kept =>
      (.done, outbox, (kept.1 + 1, kept.2))
    let other : Callback (Nat × Nat) Value Value := fun _ _ outbox kept =>
      (.done, outbox, (kept.1, kept.2 + 1))
    let b : Bus (Nat × Nat) := { broker := {}, state := (0, 0) }
    let actions : List (Action (Nat × Nat)) := [
      .connect { url := "memory://b", group := "g", client := "g-1" } provenance
        ⟨id, fun _ => .refl _⟩,
      .connect { url := "memory://b", group := "h", client := "h-1" } provenance
        ⟨id, fun _ => .refl _⟩,
      .ask 0 now (.subscribe "in" own),
      .ask 1 now (.subscribe "in" other),
      .ask 1 now (.publish (Value.null) "in" .normal),
      .ask 1 now .poll,
      .ask 1 now .commit,
      .ask 0 now .poll,
      .ask 0 now .commit]
    b.Along (KeepsApart "g" Prod.fst) actions ∧
      (b.only "g" actions).length = 6 ∧
      (b.seen "g" Prod.fst actions).map Sighting.kept = [0, 1, 1] ∧
      b.seen "g" Prod.fst (b.only "g" actions) = b.seen "g" Prod.fst actions ∧
      (b.run (b.only "g" actions)).broker.committedOffset "g" "in-NORMAL" =
        (b.run actions).broker.committedOffset "g" "in-NORMAL" := by
  intro now provenance own other b actions
  have halong : b.Along (KeepsApart "g" Prod.fst) actions := by
    refine ⟨trivial, trivial, ?_, ?_, fun _ _ => trivial, fun _ _ => trivial,
      fun _ _ => trivial, fun _ _ => trivial, fun _ _ => trivial, trivial⟩
    · intro m hm
      have hgroup : m.group = "g" := by
        cases hm
        rfl
      exact ⟨fun _ e lane o s s' hview => ⟨rfl, rfl, congrArg (· + 1) hview⟩,
        fun hother => absurd hgroup hother⟩
    · intro m hm
      have hgroup : m.group = "h" := by
        cases hm
        rfl
      exact ⟨fun hown => by simp [hgroup] at hown, fun _ e lane o s => rfl⟩
  have hruns : (b.only "g" actions).length = 6 ∧
      (b.seen "g" Prod.fst actions).map Sighting.kept = [0, 1, 1] := by decide +kernel
  obtain ⟨hapart, -⟩ := run_groups_apart {} (0, 0) actions
  obtain ⟨hseen, hcommitted⟩ := hapart "g" Prod.fst halong
  exact ⟨halong, hruns.1, hruns.2, hseen, (hcommitted _).1⟩

end Bus
end LaneBus
