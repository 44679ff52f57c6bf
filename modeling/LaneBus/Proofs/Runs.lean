import LaneBus.Proofs.Members

/-! # Runs of a bus

A bus is a broker with any number of members.  Records are appended from outside,
clients connect, calls of a connection go down and come back, and members are
asked to do their operations, in any order (`Bus.run`).

**Commits are safe** in every run (`Bus.run_committed`): every offset below what a
group has committed was handled by a member of that group, whatever failed on the
way and however many members commit for the same address.  The invariant is
`Bus.Covered`; it speaks of the starts of all members as well, since a member
takes over from what others have committed.
-/
namespace LaneBus

/-- Members at work on one broker.  Their callbacks keep `state`. -/
structure Bus (σ : Type) where
  broker : Broker := {}
  state : σ
  members : List (Member σ) := []

/-- What can happen on a bus.  Of the calls of a connection only seeking never
goes down. -/
inductive Action (σ : Type) : Type 1 where
  | append (address payload : String)
  | connect (identity : Identity) (provenance : Provenance) (itinerary : Itinerary)
  | outage (i : Nat) (outage : Outage)
  | ask (i : Nat) (now : Timestamp) (op : Operation σ)

/-- The member while some calls of its connection are down. -/
def Member.withOutage {σ : Type} (m : Member σ) (outage : Outage) : Member σ :=
  { m with
    client := { m.client with
      connection := { m.client.connection with outage := { outage with seek := false } } } }

namespace Bus

variable {σ : Type}

/-- The bus after one action. -/
def apply (b : Bus σ) : Action σ → Bus σ
  | .append address payload => { b with broker := b.broker.append address payload }
  | .connect identity provenance itinerary =>
    match Client.connect identity provenance with
    | .error _ => b
    | .ok client => { b with members := b.members ++ [{ client := { client with itinerary } }] }
  | .outage i outage =>
    match b.members[i]? with
    | none => b
    | some m => { b with members := b.members.set i (m.withOutage outage) }
  | .ask i now op =>
    match b.members[i]? with
    | none => b
    | some m =>
      let x := op.perform now (m.session b.broker b.state)
      { broker := x.broker
        state := x.state
        members := b.members.set i (m.after b.broker b.state now op) }

/-- The bus after some actions. -/
def run (b : Bus σ) (actions : List (Action σ)) : Bus σ := actions.foldl apply b

theorem run_append (b : Bus σ) (earlier later : List (Action σ)) :
    b.run (earlier ++ later) = (b.run earlier).run later :=
  List.foldl_append

/-- Some member of a group has completed the record of an address at an offset. -/
def Handled (b : Bus σ) (group a : String) (o : Nat) : Prop :=
  ∃ m ∈ b.members, m.group = group ∧ ∃ t ∈ m.journal,
    t.completed ∧ t.record.address = a ∧ t.record.offset = o ∧ b.broker.Holds t.record

/-! ## How a bus evolves -/

/-- A member after some time: its journal has only been added to. -/
structure Continues (m m' : Member σ) : Prop where
  group : m'.group = m.group
  journal : m.journal <+: m'.journal
  started : ∀ a start, m.started a = some start → m'.started a = some start

theorem Continues.refl (m : Member σ) : Continues m m :=
  ⟨rfl, List.prefix_rfl, fun _ _ h => h⟩

theorem Continues.trans {m m' m'' : Member σ} (h : Continues m m') (h' : Continues m' m'') :
    Continues m m'' :=
  ⟨h'.group.trans h.group, h.journal.trans h'.journal,
    fun a start hs => h'.started a start (h.started a start hs)⟩

/-- A bus after some time: its logs and the journals of its members have only been
added to. -/
structure Evolves (b b' : Bus σ) : Prop where
  log : ∀ a, b.broker.log a <+: b'.broker.log a
  member : ∀ (i : Nat) (m : Member σ), b.members[i]? = some m →
    ∃ m', b'.members[i]? = some m' ∧ Continues m m'

namespace Evolves

variable {b b' b'' : Bus σ}

theorem refl (b : Bus σ) : b.Evolves b :=
  ⟨fun _ => List.prefix_rfl, fun _ m hm => ⟨m, hm, .refl m⟩⟩

theorem trans (h : b.Evolves b') (h' : b'.Evolves b'') : b.Evolves b'' where
  log a := (h.log a).trans (h'.log a)
  member i m hm := by
    obtain ⟨m', hm', hcont⟩ := h.member i m hm
    obtain ⟨m'', hm'', hcont'⟩ := h'.member i m' hm'
    exact ⟨m'', hm'', hcont.trans hcont'⟩

/-- One member does something. -/
theorem set {i : Nat} {m m' : Member σ} (hm : b.members[i]? = some m)
    (hmembers : b'.members = b.members.set i m')
    (hlog : ∀ a, b.broker.log a <+: b'.broker.log a) (hcont : Continues m m') :
    b.Evolves b' where
  log := hlog
  member j n hn := by
    rw [hmembers, List.getElem?_set]
    by_cases hij : i = j
    · subst hij
      obtain rfl : m = n := Option.some.inj (hm.symm.trans hn)
      obtain ⟨hlt, -⟩ := List.getElem?_eq_some_iff.mp hm
      exact ⟨m', by simp [hlt], hcont⟩
    · exact ⟨n, by simp [hij, hn], .refl n⟩

theorem holds (h : b.Evolves b') {r : Record} (hr : b.broker.Holds r) : b'.broker.Holds r :=
  Broker.holds_of_prefix (h.log r.address) hr

theorem handled (h : b.Evolves b') {group a : String} {o : Nat} (ho : b.Handled group a o) :
    b'.Handled group a o := by
  obtain ⟨m, hm, rfl, t, ht, hc, ha, hoff, hholds⟩ := ho
  obtain ⟨i, hi⟩ := List.mem_iff_getElem?.mp hm
  obtain ⟨m', hm', hcont⟩ := h.member i m hi
  exact ⟨m', List.mem_of_getElem? hm', hcont.group, t, hcont.journal.subset ht, hc, ha, hoff,
    h.holds hholds⟩

end Evolves

/-! ## The invariants of a bus -/

/-- Every member is sound, and what it has attempted is in the logs. -/
structure Sound (b : Bus σ) : Prop where
  member : ∀ m ∈ b.members, m.Sound
  holds : ∀ m ∈ b.members, ∀ t ∈ m.journal, b.broker.Holds t.record

/-- Every offset that a group has committed, and every offset before the start of
a member, was handled by the group. -/
structure Covered (b : Bus σ) : Prop where
  committed : ∀ group a o, o < (b.broker.committedOffset group a).getD 0 → b.Handled group a o
  started : ∀ m ∈ b.members, ∀ a start, m.started a = some start →
    ∀ o < start, b.Handled m.group a o

variable {b : Bus σ}

/-- Every offset before the position of a member was handled by its group. -/
theorem Covered.handled_of_position (hc : b.Covered) (hs : b.Sound) {m : Member σ}
    (hm : m ∈ b.members) {a : String} {p o : Nat} (hp : m.position? a = some p) (ho : o < p) :
    b.Handled m.group a o := by
  cases (hs.member m hm).standing a with
  | unread _ hnone _ => rw [hp] at hnone; cases hnone
  | closed _ _ hnone _ _ => rw [hp] at hnone; cases hnone
  | reading start hstart hpos hj =>
    obtain rfl : p = _ := Option.some.inj (hp.symm.trans hpos)
    rcases Nat.lt_or_ge o start with hlt | hge
    · exact hc.started m hm a start hstart o hlt
    · obtain ⟨t, ht, hcompleted, hoffset⟩ := hj.exists_of_lt hge ho
      obtain ⟨hmem, ha⟩ := List.mem_filter.mp ht
      exact ⟨m, hm, rfl, t, hmem, hcompleted, of_decide_eq_true ha, hoffset, hs.holds m hm t hmem⟩

/-! ## One action -/

theorem connected_sound {identity : Identity} {provenance : Provenance} {client : Client σ}
    (h : Client.connect identity provenance = .ok client) (itinerary : Itinerary) :
    ({ client := { client with itinerary } } : Member σ).Sound := by
  have hw := Client.connect_wired h
  obtain rfl : ({ identity, provenance, connection := { identity } } : Client σ) = client := by
    simpa [Client.connect, Connection.connect] using h
  exact ⟨⟨hw.routed, hw.seekable, hw.opened, hw.tracked⟩, fun a => .unread rfl rfl rfl⟩

theorem withOutage_sound {m : Member σ} (h : m.Sound) (outage : Outage) :
    (m.withOutage outage).Sound := by
  refine ⟨⟨h.wired.routed, rfl, h.wired.opened, h.wired.tracked⟩, fun a => ?_⟩
  cases h.standing a with
  | unread hs hp hj => exact .unread hs hp hj
  | reading start hs hp hj => exact .reading start hs hp hj
  | closed start hs hp hj hstop => exact .closed start hs hp hj hstop

/-- All that an action can do to a bus. -/
inductive Step (b : Bus σ) : Bus σ → Prop where
  | idle : Step b b
  | appended (address payload : String) :
    Step b { b with broker := b.broker.append address payload }
  | connected (client : Client σ) (identity : Identity) (provenance : Provenance)
      (itinerary : Itinerary) (h : Client.connect identity provenance = .ok client) :
    Step b { b with members := b.members ++ [{ client := { client with itinerary } }] }
  | down (i : Nat) (m : Member σ) (outage : Outage) (hm : b.members[i]? = some m) :
    Step b { b with members := b.members.set i (m.withOutage outage) }
  | asked (i : Nat) (m : Member σ) (now : Timestamp) (op : Operation σ)
      (hm : b.members[i]? = some m) :
    Step b
      { broker := (op.perform now (m.session b.broker b.state)).broker
        state := (op.perform now (m.session b.broker b.state)).state
        members := b.members.set i (m.after b.broker b.state now op) }

theorem step_apply (b : Bus σ) (action : Action σ) : b.Step (b.apply action) := by
  cases action with
  | append address payload => exact .appended address payload
  | connect identity provenance itinerary =>
    cases h : (Client.connect identity provenance : Except BusError (Client σ)) with
    | error e => simp only [apply, h]; exact .idle
    | ok client => simp only [apply, h]; exact .connected client identity provenance itinerary h
  | outage i outage =>
    cases hm : b.members[i]? with
    | none => simp only [apply, hm]; exact .idle
    | some m => simp only [apply, hm]; exact .down i m outage hm
  | ask i now op =>
    cases hm : b.members[i]? with
    | none => simp only [apply, hm]; exact .idle
    | some m => simp only [apply, hm]; exact .asked i m now op hm

theorem getElem?_ask {i : Nat} {m : Member σ} (hm : b.members[i]? = some m) (now : Timestamp)
    (op : Operation σ) : (b.apply (.ask i now op)).members[i]? =
      some (m.after b.broker b.state now op) := by
  obtain ⟨hlt, -⟩ := List.getElem?_eq_some_iff.mp hm
  simp only [apply, hm, List.getElem?_set_self hlt]

/-- **What one action makes of a member**: it does what it is asked for, calls of its connection go
down or come back, and nothing else touches it. -/
theorem getElem?_apply {i : Nat} {m : Member σ} (hm : b.members[i]? = some m)
    (action : Action σ) :
    (∃ now op, action = .ask i now op ∧
      (b.apply action).members[i]? = some (m.after b.broker b.state now op)) ∨
    (∃ outage, action = .outage i outage ∧
      (b.apply action).members[i]? = some (m.withOutage outage)) ∨
    (∀ now op, action ≠ .ask i now op) ∧ (b.apply action).members[i]? = some m := by
  obtain ⟨hlt, -⟩ := List.getElem?_eq_some_iff.mp hm
  cases action with
  | append address payload => exact .inr (.inr ⟨nofun, hm⟩)
  | connect identity provenance itinerary =>
    exact .inr (.inr ⟨nofun, (List.getElem?_append_left hlt).trans hm⟩)
  | outage j outage =>
    by_cases hij : j = i
    · subst hij
      refine .inr (.inl ⟨outage, rfl, ?_⟩)
      simp only [apply, hm, List.getElem?_set_self hlt]
    · refine .inr (.inr ⟨nofun, ?_⟩)
      simp only [apply]
      split
      · exact hm
      · exact (List.getElem?_set_ne hij).trans hm
  | ask j now op =>
    by_cases hij : j = i
    · subst hij
      exact .inl ⟨now, op, rfl, getElem?_ask hm now op⟩
    · refine .inr (.inr ⟨?_, ?_⟩)
      · rintro now op ⟨⟩
        exact hij rfl
      · simp only [apply]
        split
        · exact hm
        · exact (List.getElem?_set_ne hij).trans hm

variable {b' : Bus σ}

theorem Step.evolves (h : b.Step b') (hs : b.Sound) : b.Evolves b' := by
  cases h with
  | idle => exact .refl b
  | appended address payload =>
    exact ⟨(Broker.Grows.append ..).log, fun _ m hm => ⟨m, hm, .refl m⟩⟩
  | connected client identity provenance itinerary hconnect =>
    refine ⟨fun _ => List.prefix_rfl, fun i m hm => ⟨m, ?_, .refl m⟩⟩
    obtain ⟨hlt, -⟩ := List.getElem?_eq_some_iff.mp hm
    rw [List.getElem?_append_left hlt]
    exact hm
  | down i m outage hm =>
    exact .set hm rfl (fun _ => List.prefix_rfl) ⟨rfl, List.prefix_rfl, fun _ _ h => h⟩
  | asked i m now op hm =>
    have hsound := hs.member m (List.mem_of_getElem? hm)
    have hbroker := op.perform_broker (x := m.session b.broker b.state) hsound.wired now
    exact .set hm rfl hbroker.log ⟨hsound.group_after b.broker b.state now op,
      List.prefix_append .., (hsound.after b.broker b.state now op).2⟩

theorem Step.sound (h : b.Step b') (hs : b.Sound) : b'.Sound := by
  have hevolves := h.evolves hs
  have hkept (m : Member σ) (hm : m ∈ b.members) (t : Attempt) (ht : t ∈ m.journal) :
      b'.broker.Holds t.record := hevolves.holds (hs.holds m hm t ht)
  cases h with
  | idle => exact hs
  | appended address payload => exact ⟨hs.member, hkept⟩
  | connected client identity provenance itinerary hconnect =>
    refine ⟨fun m hm => ?_, fun m hm t ht => ?_⟩
    · rcases List.mem_append.mp hm with hm | hm
      · exact hs.member m hm
      · rw [List.mem_singleton.mp hm]
        exact connected_sound hconnect itinerary
    · rcases List.mem_append.mp hm with hm | hm
      · exact hkept m hm t ht
      · rw [List.mem_singleton.mp hm] at ht
        cases ht
  | down i m outage hm =>
    have hmem := List.mem_of_getElem? hm
    refine ⟨fun n hn => ?_, fun n hn t ht => ?_⟩
    · rcases List.mem_or_eq_of_mem_set hn with hn | rfl
      · exact hs.member n hn
      · exact withOutage_sound (hs.member m hmem) outage
    · rcases List.mem_or_eq_of_mem_set hn with hn | rfl
      · exact hkept n hn t ht
      · exact hkept m hmem t ht
  | asked i m now op hm =>
    have hmem := List.mem_of_getElem? hm
    refine ⟨fun n hn => ?_, fun n hn t ht => ?_⟩
    · rcases List.mem_or_eq_of_mem_set hn with hn | rfl
      · exact hs.member n hn
      · exact ((hs.member m hmem).after b.broker b.state now op).1
    · rcases List.mem_or_eq_of_mem_set hn with hn | rfl
      · exact hkept n hn t ht
      · rcases List.mem_append.mp ht with ht | ht
        · exact hkept m hmem t ht
        · exact op.attempts_holds (hs.member m hmem).wired now t ht

/-- **One action keeps a bus covered.**  A commit only covers positions, and a new
start is what had been committed before. -/
theorem Step.covered (h : b.Step b') (hs : b.Sound) (hc : b.Covered) : b'.Covered := by
  have hevolves := h.evolves hs
  have hcommitted (group a : String) (o : Nat)
      (ho : o < (b.broker.committedOffset group a).getD 0) : b'.Handled group a o :=
    hevolves.handled (hc.committed group a o ho)
  have hstarted (m : Member σ) (hm : m ∈ b.members) (a : String) (start : Nat)
      (hstart : m.started a = some start) (o : Nat) (ho : o < start) : b'.Handled m.group a o :=
    hevolves.handled (hc.started m hm a start hstart o ho)
  cases h with
  | idle => exact hc
  | appended address payload => exact ⟨hcommitted, hstarted⟩
  | connected client identity provenance itinerary hconnect =>
    refine ⟨hcommitted, fun m hm a start hstart => ?_⟩
    rcases List.mem_append.mp hm with hm | hm
    · exact hstarted m hm a start hstart
    · rw [List.mem_singleton.mp hm] at hstart
      cases hstart
  | down i m outage hm =>
    refine ⟨hcommitted, fun n hn a start hstart => ?_⟩
    rcases List.mem_or_eq_of_mem_set hn with hn | rfl
    · exact hstarted n hn a start hstart
    · exact hstarted m (List.mem_of_getElem? hm) a start hstart
  | asked i m now op hm =>
    have hmem := List.mem_of_getElem? hm
    have hsound := hs.member m hmem
    have hbroker := op.perform_broker (x := m.session b.broker b.state) hsound.wired now
    have hgroup := hsound.group_after b.broker b.state now op
    refine ⟨fun group a o ho => ?_, fun n hn a start hstart o ho => ?_⟩
    · -- a commit covers what lies below a position, and that was handled
      rcases hbroker.committed group a with hsame | ⟨rfl, p, hp, hnew⟩
      · rw [hsame] at ho
        exact hcommitted group a o ho
      · rw [hnew] at ho
        exact hevolves.handled (hc.handled_of_position hs hmem hp ho)
    · rcases List.mem_or_eq_of_mem_set hn with hn | rfl
      · exact hstarted n hn a start hstart o ho
      · rw [hgroup]
        -- a start that is new is what was committed just before
        rcases m.started_after b.broker b.state now op a with hnew | hold
        · obtain rfl : _ = start := Option.some.inj (hnew.symm.trans hstart)
          exact hcommitted m.group a o ho
        · exact hstarted m hmem a start (hold ▸ hstart) o ho

/-! ## Runs -/

theorem run_sound (hs : b.Sound) (actions : List (Action σ)) : (b.run actions).Sound := by
  induction actions generalizing b with
  | nil => exact hs
  | cons action rest ih => exact ih ((b.step_apply action).sound hs)

theorem run_evolves (hs : b.Sound) (actions : List (Action σ)) : b.Evolves (b.run actions) := by
  induction actions generalizing b with
  | nil => exact .refl b
  | cons action rest ih =>
    have hstep := b.step_apply action
    exact (hstep.evolves hs).trans (ih (hstep.sound hs))

theorem run_covered (hs : b.Sound) (hc : b.Covered) (actions : List (Action σ)) :
    (b.run actions).Covered := by
  induction actions generalizing b with
  | nil => exact hc
  | cons action rest ih =>
    have hstep := b.step_apply action
    exact ih (hstep.sound hs) (hstep.covered hs hc)

/-- A condition holds of every action of a run. -/
def Along (P : Bus σ → Action σ → Prop) : Bus σ → List (Action σ) → Prop
  | _, [] => True
  | b, action :: rest => P b action ∧ Along P (b.apply action) rest

theorem Along.congr {P Q : Bus σ → Action σ → Prop} (h : ∀ b, b.Sound → ∀ action, P b action ↔ Q b action)
    (hs : b.Sound) (actions : List (Action σ)) : b.Along P actions ↔ b.Along Q actions := by
  induction actions generalizing b with
  | nil => exact Iff.rfl
  | cons action rest ih =>
    rw [Along, Along, h b hs action, ih ((b.step_apply action).sound hs)]

/-- A bus without members is sound, whatever its broker holds. -/
theorem sound_of_no_members (broker : Broker) (state : σ) : ({ broker, state } : Bus σ).Sound :=
  ⟨fun m hm => (by cases hm), fun m hm => (by cases hm)⟩

theorem covered_of_new (state : σ) : ({ state } : Bus σ).Covered :=
  ⟨fun group a o ho => (by cases ho), fun m hm => (by cases hm)⟩

/-- **Commits are safe.**  After any run from an empty broker, every offset below
what a group has committed was handled by a member of the group.  What a member is
handed from an address starts at what the group had committed when its connection
got to know the address, and no offset is skipped. -/
theorem run_committed (state : σ) (actions : List (Action σ)) (group a : String) :
    (∀ o < ((run { state } actions).broker.committedOffset group a).getD 0,
      (run { state } actions).Handled group a o) ∧
    ∀ m ∈ (run { state } actions).members, m.group = group →
      match m.started a with
      | none => attemptsAt a m.journal = []
      | some start => InOrder start (attemptsAt a m.journal) := by
  have hs : (run { state } actions).Sound := run_sound (sound_of_no_members {} state) actions
  have hc : (run { state } actions).Covered :=
    run_covered (sound_of_no_members {} state) (covered_of_new state) actions
  refine ⟨fun o ho => hc.committed group a o ho, fun m hm _ => ?_⟩
  cases hstart : m.started a with
  | none => exact (hs.member m hm).attemptsAt_eq_nil hstart
  | some start => exact (hs.member m hm).inOrder hstart

end Bus
end LaneBus
