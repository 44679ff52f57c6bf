import LaneBus.Proofs.Monitoring
import LaneBus.Proofs.Overtaking
import LaneBus.Proofs.Polling
import Mathlib.Algebra.Order.BigOperators.Group.List
import Mathlib.Algebra.Order.Group.Nat

/-! # Newcomers

A member that joins a bus starts to read an address at what its group has committed by then.
Whatever members before it have read and not committed, it is handed again: none of the calls
of its connection being down, it completes the records of an address one after another from
there on, and every pass hands it at least one record or leaves nothing behind
(`Bus.newcomer_serves`).
-/
namespace LaneBus

variable {σ : Type}

/-! ## Passes on a connection that is up -/

namespace Session

variable {x : Session σ}

theorem send_up (hup : x.client.connection.Up) (r : Outgoing) : (x.send r).1 = .ok () :=
  (send_appends rfl rfl hup.send r).1

theorem sendAll_up (hup : x.client.connection.Up) (records : List Outgoing) :
    (x.sendAll records).1 = .ok () :=
  (sendAll_appends rfl rfl hup.send records).1

theorem dispatch_up (hup : x.client.connection.Up) (now : Timestamp) (r : Record) :
    (x.dispatch now r).1 = .ok () := by
  unfold dispatch
  split
  · rfl
  · dsimp only
    split
    · apply sendAll_up
      exact hup
    · apply send_up
      exact hup
    · rfl

theorem dispatchAll_up (hup : x.client.connection.Up) (now : Timestamp) (records : List Record) :
    (x.dispatchAll now records).1 = .ok () := by
  induction records generalizing x with
  | nil => rfl
  | cons r rest ih =>
    have hok := dispatch_up hup now r
    have hclient := (x.dispatch_steady now r).client
    unfold dispatchAll
    split
    · rename_i y hy
      rw [hy] at hclient
      exact ih (hclient ▸ hup)
    · rename_i e y hy
      rw [hy] at hok
      cases hok

/-- **A pass on a connection that is up** completes all records that it takes, and takes none
only when there is nothing left to read. -/
theorem pass_up (hw : x.client.Wired) (hup : x.Up) (now : Timestamp) (waited : Bool) :
    (∀ t ∈ x.passAttempts now waited, t.completed = true) ∧
      (x.passAttempts now waited = [] → x.listening.Drained) := by
  obtain ⟨records, y, hgather, htook, hdrained⟩ := gather_up hw hup now waited
  have hok : (x.pass now waited).1 = .ok records.length := by
    have hall := dispatchAll_up (htook.up hup.synced).connection now records
    rw [pass, hgather]
    dsimp only
    split
    · rename_i e z hz
      rw [hz] at hall
      cases hall
    · rfl
  obtain ⟨hlength, hcompleted⟩ := pass_ok hw hok
  refine ⟨hcompleted, fun hnil => hdrained (List.eq_nil_of_length_eq_zero ?_)⟩
  rw [← hlength, hnil, List.length_nil]

end Session

/-! ## Members at work -/

namespace Operation

variable {x : Session σ} {op : Operation σ}

/-- Whether an operation stops the client. -/
def isStop : Operation σ → Bool
  | stop => true
  | _ => false

/-- Whether an operation is a pass. -/
def isPass : Operation σ → Bool
  | poll | resume => true
  | _ => false

/-- Nothing but stopping it stops a client. -/
theorem perform_stopped (hw : x.client.Wired) (now : Timestamp) (hop : op.isStop = false) :
    (op.perform now x).client.stopped = x.client.stopped := by
  have hregistered (topic : String) (kind : SubscriptionKind) (handler : Handler σ) :
      (x.registered (if x.client.stopped then .error .stopped
        else .ok (x.client.register topic kind handler))).client.stopped = x.client.stopped := by
    split
    · rfl
    · obtain ⟨index, subscriptions, hroute, -⟩ :=
        x.client.register_eq_route { topic, kind, handler }
      exact (congrArg Client.stopped hroute).trans (Client.route_stopped ..)
  have hpass (waited : Bool) : (x.pass now waited).2.client.stopped = x.client.stopped := by
    rcases Session.pass_cases hw now waited with ⟨-, hsame⟩ | ⟨-, hpassed⟩
    · rw [hsame]
    · obtain ⟨positions, hclient⟩ := hpassed.client
      rw [hclient]
      rfl
  cases op with
  | subscribe topic callback => exact hregistered topic ..
  | subscribeWith topic callback onError => exact hregistered topic ..
  | subscribeErrors topic callback => exact hregistered topic ..
  | publish value topic lane =>
    exact congrArg Client.stopped (x.publish_steady now value topic lane).client
  | publishDerived input value topic lane =>
    exact congrArg Client.stopped (x.publishDerived_steady now input value topic lane).client
  | publishError input failure topic =>
    exact congrArg Client.stopped (x.publishError_steady now input failure topic).client
  | poll => exact hpass false
  | listen =>
    show x.listen.2.client.stopped = x.client.stopped
    rcases x.listen_cases with ⟨-, hok⟩ | ⟨e, herr⟩
    · rw [hok]
      rfl
    · rw [herr]
  | resume => exact hpass true
  | commit => exact congrArg Client.stopped x.commit_client
  | heartbeat => exact congrArg Client.stopped (x.heartbeat_client now)
  | stop => cases hop

theorem perform_up (hw : x.client.Wired) (hup : x.Up) (now : Timestamp) (hop : op.isStop = false) :
    (op.perform now x).Up := by
  have hrunning := (perform_stopped hw now hop).trans hup.running
  refine ⟨hrunning, (op.perform_effect hw now).wired.opened hrunning, ?_⟩
  rcases op.perform_rewires hw now with hwiring | ⟨topic, kind, handler, -, hclient⟩
  · exact hwiring.outage.trans hup.connection.outage
  · rw [hclient, Client.register_connection]
    exact hup.connection.outage

/-- Nothing but a pass attempts anything, and a pass on a connection that is up completes all that
it attempts. -/
theorem attempts_up (hw : x.client.Wired) (hup : x.Up) (now : Timestamp) :
    (op.isPass = false → op.attempts now x = []) ∧
      (∀ t ∈ op.attempts now x, t.completed = true) ∧
      (op.isPass = true → op.attempts now x = [] → x.listening.Drained) := by
  have hpass (waited : Bool) := Session.pass_up hw hup now waited
  cases op with
  | poll => exact ⟨nofun, (hpass false).1, fun _ => (hpass false).2⟩
  | resume => exact ⟨nofun, (hpass true).1, fun _ => (hpass true).2⟩
  | _ => exact ⟨fun _ => rfl, nofun, nofun⟩

end Operation

/-- A pass makes its attempts from the positions that the connection has now that it knows every
address. -/
theorem Operation.perform_passed {x : Session σ} (hw : x.client.Wired) (hup : x.Up)
    (now : Timestamp) {op : Operation σ} (hop : op.isPass = true) :
    x.listening.Passed (op.attempts now x) (op.perform now x) := by
  have hpassed (waited : Bool) :=
    Session.pass_of_listen hw hup.running (Session.listen_up hup) now waited
  cases op with
  | poll => exact hpassed false
  | resume => exact hpassed true
  | _ => cases hop

/-- What is attempted comes from an address that the client reads. -/
theorem Operation.attempts_routed {x : Session σ} (hw : x.client.Wired) (now : Timestamp)
    (op : Operation σ) :
    ∀ t ∈ op.attempts now x, (x.client.routes.get? t.record.address).isSome := by
  have hpass (waited : Bool) (t : Attempt) (ht : t ∈ x.passAttempts now waited) :
      (x.client.routes.get? t.record.address).isSome := by
    have howned := Session.passAttempts_owned hw now waited t.record (List.mem_map_of_mem ht)
    cases hroute : x.client.routes.get? t.record.address with
    | none => simp [Client.receiver?, hroute] at howned
    | some route => rfl
  cases op with
  | poll => exact hpass false
  | resume => exact hpass true
  | _ => exact fun t ht => absurd ht List.not_mem_nil

namespace Client

variable {c : Client σ} {a : String}

theorem isSome_register (h : (c.routes.get? a).isSome) (topic : String) (kind : SubscriptionKind)
    (handler : Handler σ) : ((c.register topic kind handler).routes.get? a).isSome := by
  obtain ⟨index, subscriptions, hroute, -⟩ := c.register_eq_route { topic, kind, handler }
  have hget := get?_route topic index { c with subscriptions } kind.lanes a
  rw [hroute, hget]
  split
  · rfl
  · exact h

end Client

/-- A client goes on reading the addresses that it reads. -/
theorem Operation.perform_reads {x : Session σ} (hw : x.client.Wired) (now : Timestamp)
    (op : Operation σ) {a : String} (h : (x.client.routes.get? a).isSome) :
    ((op.perform now x).client.routes.get? a).isSome := by
  rcases op.perform_rewires hw now with hwiring | ⟨topic, kind, handler, -, hclient⟩
  · rwa [hwiring.routes]
  · rw [hclient]
    exact Client.isSome_register h topic kind handler

namespace Member

variable {m : Member σ} {b : Broker} {a : String}

/-- A member at work: nothing has kept it from completing what it has attempted. -/
structure Working (m : Member σ) : Prop where
  running : m.client.stopped = false
  up : m.client.connection.Up
  completed : ∀ t ∈ m.journal, t.completed = true
  owned : ∀ t ∈ m.journal, (m.client.routes.get? t.record.address).isSome

/-- The member has been handed all records of a log, from its start on. -/
def HasRead (m : Member σ) (b : Broker) (a : String) : Prop :=
  ∃ start, m.started a = some start ∧ (b.log a).length ≤ start + (attemptsAt a m.journal).length

theorem Working.session (h : m.Working) (state : σ) : (m.session b state).Up :=
  ⟨h.running, h.up⟩

theorem Working.after (h : m.Working) (hs : m.Sound) (b : Broker) (state : σ) (now : Timestamp)
    {op : Operation σ} (hop : op.isStop = false) : (m.after b state now op).Working := by
  have hup := Operation.perform_up hs.wired (h.session (b := b) state) now hop
  refine ⟨hup.running, hup.connection, fun t ht => ?_, fun t ht => ?_⟩
  · rcases List.mem_append.mp ht with ht | ht
    · exact h.completed t ht
    · exact (Operation.attempts_up hs.wired (h.session state) now).2.1 t ht
  · refine Operation.perform_reads (x := m.session b state) hs.wired now op ?_
    rcases List.mem_append.mp ht with ht | ht
    · exact h.owned t ht
    · exact op.attempts_routed hs.wired now t ht

/-- **A pass that attempts nothing** leaves nothing behind. -/
theorem Working.hasRead (h : m.Working) (hs : m.Sound) (state : σ) (now : Timestamp)
    {op : Operation σ} (hpass : op.isPass = true)
    (hnil : op.attempts now (m.session b state) = []) (ha : (m.client.routes.get? a).isSome) :
    (m.after b state now op).HasRead b a := by
  have hup := h.session (b := b) state
  have hdrained := (Operation.attempts_up hs.wired hup now).2.2 hpass hnil
  -- the pass has let the connection know the address, and has moved no position since
  obtain ⟨p, hp⟩ := Option.isSome_iff_exists.mp
    (Client.synced_tracked hs.wired h.running b ha)
  have hprogress := (Operation.perform_passed hs.wired hup now hpass).progress
  rw [hnil] at hprogress
  have hposition : (m.after b state now op).position? a = some p := (hprogress.tracked a p hp).2
  have hle : (b.log a).length ≤ p := hdrained a p ha hp
  have hs' := (hs.after b state now op).1
  cases hs'.standing a with
  | unread _ hnone _ => rw [hposition] at hnone; cases hnone
  | closed _ _ hnone _ _ => rw [hposition] at hnone; cases hnone
  | reading start hstart hpos _ =>
    refine ⟨start, hstart, ?_⟩
    obtain rfl := Option.some.inj (hposition.symm.trans hpos)
    exact Nat.le_trans hle (Nat.add_le_add_left (List.countP_le_length ..) start)

theorem HasRead.earlier {b' : Broker} (h : m.HasRead b' a) (hlog : b.log a <+: b'.log a) :
    m.HasRead b a := by
  obtain ⟨start, hstart, hle⟩ := h
  exact ⟨start, hstart, Nat.le_trans hlog.length_le hle⟩

theorem HasRead.after (h : m.HasRead b a) (hs : m.Sound) (b' : Broker) (state : σ)
    (now : Timestamp) (op : Operation σ) : (m.after b' state now op).HasRead b a := by
  obtain ⟨start, hstart, hle⟩ := h
  refine ⟨start, (hs.after b' state now op).2 a start hstart, Nat.le_trans hle ?_⟩
  have hmore : attemptsAt a m.journal <+: attemptsAt a (m.after b' state now op).journal :=
    (List.prefix_append ..).filter _
  exact Nat.add_le_add_left hmore.length_le start

/-- A member has worked for some time, and `n` passes, since it was `m₀` on a broker `b₀`: each
pass has handed it a record, or it has been handed all that there was. -/
structure Since (b₀ : Broker) (m₀ : Member σ) (n : Nat) (b : Broker) (m : Member σ) : Prop where
  working : m.Working
  log : ∀ a, b₀.log a <+: b.log a
  reads : ∀ a, (m₀.client.routes.get? a).isSome → (m.client.routes.get? a).isSome
  read : n + m₀.journal.length ≤ m.journal.length ∨
    ∀ a, (m₀.client.routes.get? a).isSome → m.HasRead b₀ a

theorem Working.since (h : m.Working) (b : Broker) : Since b m 0 b m :=
  ⟨h, fun _ => List.prefix_rfl, fun _ h => h, .inl (by omega)⟩

/-- **One operation**, which counts if it is a pass. -/
theorem Since.after {b₀ b' : Broker} {m₀ : Member σ} {n : Nat} (h : Since b₀ m₀ n b m)
    (hs : m.Sound) (state : σ) (now : Timestamp) {op : Operation σ} (hop : op.isStop = false)
    (hlog : ∀ a, b.log a <+: b'.log a) :
    Since b₀ m₀ (n + if op.isPass then 1 else 0) b' (m.after b state now op) where
  working := h.working.after hs b state now hop
  log a := (h.log a).trans (hlog a)
  reads a ha := op.perform_reads (x := m.session b state) hs.wired now (h.reads a ha)
  read := by
    have hlength : (m.after b state now op).journal.length =
        m.journal.length + (op.attempts now (m.session b state)).length := List.length_append
    rcases h.read with hle | hall
    · cases hpass : op.isPass with
      | false => exact .inl (by simp; omega)
      | true =>
        by_cases hnil : op.attempts now (m.session b state) = []
        · exact .inr fun a ha => (h.working.hasRead hs state now hpass hnil
            (h.reads a ha)).earlier (h.log a)
        · have hpos := List.length_pos_iff.mpr hnil
          exact .inl (by simp; omega)
    · exact .inr fun a ha => (hall a ha).after hs b state now op

end Member

/-! ## On a bus -/

/-- The action lets a member work: no call of its connection goes down, and it is not stopped. -/
def Action.Lets (i : Nat) : Action σ → Prop
  | .outage j _ => j ≠ i
  | .ask j _ op => j = i → op.isStop = false
  | _ => True

/-- The action is a pass of a member. -/
def Action.isPassOf (i : Nat) : Action σ → Bool
  | .ask j _ op => j == i && op.isPass
  | _ => false

theorem Action.isPassOf_of_spared {i : Nat} {action : Action σ}
    (h : ∀ now op, action ≠ .ask i now op) : action.isPassOf i = false := by
  cases action with
  | ask j now op =>
    have hij : j ≠ i := by
      rintro rfl
      exact h now op rfl
    simp [isPassOf, hij]
  | _ => rfl

namespace Bus

variable {b : Bus σ} {i : Nat} {m m' : Member σ}

/-- **An action that lets a member work** asks it for something, or leaves it as it is. -/
theorem getElem?_of_lets (hm : b.members[i]? = some m) {action : Action σ} (h : action.Lets i) :
    (∃ now op, op.isStop = false ∧ action = .ask i now op ∧
      (b.apply action).members[i]? = some (m.after b.broker b.state now op)) ∨
    action.isPassOf i = false ∧ (b.apply action).members[i]? = some m := by
  rcases getElem?_apply hm action with
    ⟨now, op, rfl, hasked⟩ | ⟨outage, rfl, -⟩ | ⟨hspared, hsame⟩
  · exact .inl ⟨now, op, h rfl, rfl, hasked⟩
  · exact absurd rfl h
  · exact .inr ⟨Action.isPassOf_of_spared hspared, hsame⟩

/-- **A member works on** while it is let. -/
theorem since_run {b₀ : Broker} {m₀ : Member σ} {n : Nat} (hm : b.members[i]? = some m)
    (hs : b.Sound) (h : Member.Since b₀ m₀ n b.broker m) {actions : List (Action σ)}
    (hlets : ∀ action ∈ actions, action.Lets i) :
    ∃ m', (b.run actions).members[i]? = some m' ∧
      Member.Since b₀ m₀ (n + actions.countP (Action.isPassOf i)) (b.run actions).broker m' := by
  induction actions generalizing b m n with
  | nil => exact ⟨m, hm, h⟩
  | cons action rest ih =>
    obtain ⟨hfirst, hrest⟩ := List.forall_mem_cons.mp hlets
    have hsound := (b.step_apply action).sound hs
    have hlog := ((b.step_apply action).evolves hs).log
    rw [List.countP_cons, Nat.add_comm (List.countP ..), ← Nat.add_assoc]
    rcases getElem?_of_lets hm hfirst with ⟨now, op, hop, rfl, hm'⟩ | ⟨hpass, hm'⟩
    · have hcount : (Action.ask i now op).isPassOf i = op.isPass := by simp [Action.isPassOf]
      rw [hcount]
      exact ih hm' hsound
        (h.after (hs.member m (List.mem_of_getElem? hm)) b.state now hop hlog) hrest
    · rw [hpass]
      exact ih hm' hsound ⟨h.working, fun a => (h.log a).trans (hlog a), h.reads, h.read⟩ hrest

/-- A member starts to read an address by an action, from what its group has committed before
it. -/
structure StartsBy (b : Bus σ) (i : Nat) (group a : String) (start : Nat)
    (before : List (Action σ)) (next : Action σ) : Prop where
  unread : ∀ m, (b.run before).members[i]? = some m → m.started a = none
  started : ∀ m, (b.run (before ++ [next])).members[i]? = some m → m.started a = some start
  committed : start = (b.run before).committed group a

/-- **A start is what the group has committed** when the member starts to read. -/
theorem started_run (hm : b.members[i]? = some m) (hs : b.Sound) {actions : List (Action σ)}
    (hlets : ∀ action ∈ actions, action.Lets i) (hm' : (b.run actions).members[i]? = some m')
    {a : String} {start : Nat} (hstart : m'.started a = some start) :
    m.started a = some start ∨ ∃ before next after, actions = before ++ next :: after ∧
      b.StartsBy i m.group a start before next := by
  induction actions generalizing b m with
  | nil =>
    obtain rfl : m = m' := Option.some.inj (hm.symm.trans hm')
    exact .inl hstart
  | cons action rest ih =>
    obtain ⟨hfirst, hrest⟩ := List.forall_mem_cons.mp hlets
    have hsound := (b.step_apply action).sound hs
    have hlater {m₁ : Member σ} (hm₁ : (b.apply action).members[i]? = some m₁)
        (hgroup : m₁.group = m.group) : m₁.started a = some start ∨ ∃ before next after,
          action :: rest = before ++ next :: after ∧
            b.StartsBy i m.group a start before next := by
      rcases ih hm₁ hsound hrest hm' with hold | ⟨before, next, after, rfl, hby⟩
      · exact .inl hold
      · exact .inr ⟨action :: before, next, after, rfl, hby.unread, hby.started,
          hgroup ▸ hby.committed⟩
    rcases getElem?_of_lets hm hfirst with ⟨now, op, -, rfl, hm₁⟩ | ⟨-, hm₁⟩
    · have hsm := hs.member m (List.mem_of_getElem? hm)
      rcases hlater hm₁ (hsm.group_after b.broker b.state now op) with hfresh | hnew
      · cases hold : m.started a with
        | some p =>
          -- a start that there was stays what it is
          have hsame := (hsm.after b.broker b.state now op).2 a p hold
          exact .inl (hsame.symm.trans hfresh)
        | none =>
          have hcommitted : start = b.committed m.group a := by
            rcases m.started_after b.broker b.state now op a with hnew | hkept
            · exact Option.some.inj (hfresh.symm.trans hnew)
            · rw [hkept, hold] at hfresh
              cases hfresh
          refine .inr ⟨[], _, rest, rfl, fun n hn => ?_, fun n hn => ?_, hcommitted⟩
          · obtain rfl : m = n := Option.some.inj (hm.symm.trans hn)
            exact hold
          · obtain rfl := Option.some.inj (hm₁.symm.trans hn)
            exact hfresh
      · exact .inr hnew
    · exact hlater hm₁ rfl

/-- **What a member is handed that works on a bus** from the time on that it joined a group. -/
structure Serves (b : Bus σ) (i : Nat) (group : String) (actions : List (Action σ))
    (m : Member σ) : Prop where
  member : (b.run actions).members[i]? = some m
  joined : m.group = group
  /-- From a registration on, it reads the addresses of the topic. -/
  reads : ∀ before after now op topic kind handler m₀,
    actions = before ++ .ask i now op :: after →
    op.registration? = some (topic, kind, handler) →
    (b.run (before ++ [.ask i now op])).members[i]? = some m₀ →
    ∀ lane ∈ kind.lanes, (m₀.client.routes.get? (lane.address topic)).isSome
  /-- It starts to read an address at what the group has committed by then. -/
  starts : ∀ a start, m.started a = some start → ∃ before next after,
    actions = before ++ next :: after ∧ b.StartsBy i group a start before next
  /-- It has completed the records of an address one after another from its start on, each of
  them once, and is handed nothing from elsewhere. -/
  handed : ∀ a, attemptsAt a m.journal =
    match m.started a with
    | none => []
    | some start =>
      (((b.run actions).broker.recordsFrom a start).take (attemptsAt a m.journal).length).map
        fun r => ⟨r, true⟩
  /-- At any time, each pass that follows hands it a record, or it is handed all that there was
  to read. -/
  progress : ∀ before after m₀, actions = before ++ after →
    (b.run before).members[i]? = some m₀ →
    after.countP (Action.isPassOf i) + m₀.journal.length ≤ m.journal.length ∨
    ∀ a, (m₀.client.routes.get? a).isSome → ∃ start, m.started a = some start ∧
      (b.run before).broker.recordsFrom a start <+: (attemptsAt a m.journal).map Attempt.record
  /-- So it is handed all that there was by more passes than there are records to read. -/
  complete : ∀ before after m₀, actions = before ++ after →
    (b.run before).members[i]? = some m₀ →
    (m.client.routes.keys.map fun a => ((b.run actions).broker.log a).length).sum <
      after.countP (Action.isPassOf i) →
    ∀ a, (m₀.client.routes.get? a).isSome → ∃ start, m.started a = some start ∧
      (b.run before).broker.recordsFrom a start <+: (attemptsAt a m.journal).map Attempt.record

end Bus

theorem Broker.recordsFrom_prefix {b b' : Broker} {a : String} (h : b.log a <+: b'.log a)
    (start : Nat) : b.recordsFrom a start <+: b'.recordsFrom a start := by
  obtain ⟨more, hmore⟩ := h
  rw [recordsFrom, recordsFrom, ← hmore, List.drop_append, List.zipIdx_append, List.map_append]
  exact List.prefix_append ..

namespace Member

variable {m : Member σ} {b : Broker} {a : String}

theorem Working.attemptsAt_eq (h : m.Working) (hs : m.Sound)
    (hholds : ∀ t ∈ m.journal, b.Holds t.record) (a : String) :
    attemptsAt a m.journal =
      match m.started a with
      | none => []
      | some start => ((b.recordsFrom a start).take (attemptsAt a m.journal).length).map
        fun r => ⟨r, true⟩ := by
  cases hstart : m.started a with
  | none => exact hs.attemptsAt_eq_nil hstart
  | some start =>
    dsimp only
    rw [← (hs.attempted_eq_take hholds h.completed hstart).1]
    exact eq_map_of_completed fun t ht => h.completed t (List.mem_filter.mp ht).1

/-- Whoever has read a log has been handed the records that are in it. -/
theorem Working.prefix_of_hasRead (h : m.Working) (hs : m.Sound) {b₀ : Broker}
    (hholds : ∀ t ∈ m.journal, b.Holds t.record) (hlog : b₀.log a <+: b.log a)
    (hread : m.HasRead b₀ a) : ∃ start, m.started a = some start ∧
      b₀.recordsFrom a start <+: (attemptsAt a m.journal).map Attempt.record := by
  obtain ⟨start, hstart, hle⟩ := hread
  refine ⟨start, hstart, ?_⟩
  rw [(hs.attempted_eq_take hholds h.completed hstart).1]
  refine List.prefix_take_iff.mpr ⟨Broker.recordsFrom_prefix hlog start, ?_⟩
  rw [Broker.length_recordsFrom]
  omega

/-- A member has not been handed more than there is in the logs that it reads. -/
theorem Working.length_journal_le (h : m.Working) (hs : m.Sound)
    (hholds : ∀ t ∈ m.journal, b.Holds t.record) :
    m.journal.length ≤ (m.client.routes.keys.map fun a => (b.log a).length).sum := by
  have haddress (t : Attempt) (ht : t ∈ m.journal) : t.record.address ∈ m.client.routes.keys :=
    Table.mem_keys_iff.mpr (h.owned t ht)
  rw [← sum_length_attemptsAt m.client.routes.nodup haddress]
  refine List.sum_le_sum fun a _ => ?_
  cases hstart : m.started a with
  | none =>
    rw [hs.attemptsAt_eq_nil hstart]
    exact Nat.zero_le _
  | some start =>
    have hlength := congrArg List.length (hs.attempted_eq_take hholds h.completed hstart).1
    rw [List.length_map, List.length_take, Broker.length_recordsFrom] at hlength
    omega

end Member

namespace Bus

variable {b : Bus σ}

/-- Passes leave nothing behind: each has handed the member a record, or it has been handed all
that there was. -/
theorem progress_run {i : Nat} {m m' : Member σ} (hs : b.Sound) (hm : b.members[i]? = some m)
    (hwork : m.Working) {actions : List (Action σ)} (hlets : ∀ action ∈ actions, action.Lets i)
    (hm' : (b.run actions).members[i]? = some m') :
    actions.countP (Action.isPassOf i) + m.journal.length ≤ m'.journal.length ∨
    ∀ a, (m.client.routes.get? a).isSome → ∃ start, m'.started a = some start ∧
      b.broker.recordsFrom a start <+: (attemptsAt a m'.journal).map Attempt.record := by
  obtain ⟨n, hn, hsince⟩ := since_run hm hs (hwork.since b.broker) hlets
  obtain rfl : n = m' := Option.some.inj (hn.symm.trans hm')
  have hsound := run_sound hs actions
  have hmem := List.mem_of_getElem? hn
  rw [Nat.zero_add] at hsince
  exact hsince.read.imp_right fun hread a ha => hsince.working.prefix_of_hasRead
    (hsound.member n hmem) (hsound.holds n hmem) (hsince.log a) (hread a ha)

/-- A working member reads what it registers. -/
theorem reads_of_registration {i : Nat} {m m' : Member σ} (hm : b.members[i]? = some m)
    (hwork : m.Working) (now : Timestamp) {op : Operation σ} {topic : String}
    {kind : SubscriptionKind} {handler : Handler σ}
    (hop : op.registration? = some (topic, kind, handler))
    (hm' : (b.apply (.ask i now op)).members[i]? = some m') :
    ∀ lane ∈ kind.lanes, (m'.client.routes.get? (lane.address topic)).isSome := by
  intro lane hlane
  have hclient :=
    Operation.perform_registers (x := m.session b.broker b.state) hwork.running now hop
  have hreceiver := m.client.receiver?_register topic handler hlane
  obtain rfl := Option.some.inj ((getElem?_ask hm now op).symm.trans hm')
  show ((op.perform now (m.session b.broker b.state)).client.routes.get? _).isSome
  rw [hclient]
  cases hroute : (m.client.register topic kind handler).routes.get? (lane.address topic) with
  | none => simp [Client.receiver?, hroute] at hreceiver
  | some route => exact (congrArg Option.isSome hroute).trans rfl

/-- **A newcomer is handed everything from the committed offset on.**  Whatever others do, and
whatever they have read before, a member that joins a group and is let work is served. -/
theorem newcomer_serves (hs : b.Sound) (identity : Identity) (provenance : Provenance)
    (itinerary : Itinerary) {actions : List (Action σ)}
    (hlets : ∀ action ∈ actions, action.Lets b.members.length) :
    ∃ m, (b.apply (.connect identity provenance itinerary)).Serves b.members.length
      identity.group actions m := by
  obtain ⟨m₀, hm₀, hgroup, hwork, hnew⟩ : ∃ m₀ : Member σ,
      (b.apply (.connect identity provenance itinerary)).members[b.members.length]? = some m₀ ∧
        m₀.group = identity.group ∧ m₀.Working ∧ ∀ a, m₀.started a = none :=
    ⟨_, List.getElem?_concat_length, rfl, ⟨rfl, ⟨rfl, rfl⟩, nofun, nofun⟩, fun _ => rfl⟩
  have hjoined := (b.step_apply (.connect identity provenance itinerary)).sound hs
  generalize b.apply (.connect identity provenance itinerary) = joined at hm₀ hjoined ⊢
  generalize b.members.length = i at hm₀ hlets ⊢
  obtain ⟨m, hm, hsince⟩ := since_run hm₀ hjoined (hwork.since joined.broker) hlets
  have hsound := run_sound hjoined actions
  have hmem := List.mem_of_getElem? hm
  have hholds := hsound.holds m hmem
  have hprogress (before after : List (Action σ)) (m₁ : Member σ)
      (hsplit : actions = before ++ after) (hm₁ : (joined.run before).members[i]? = some m₁) :
      after.countP (Action.isPassOf i) + m₁.journal.length ≤ m.journal.length ∨
      ∀ a, (m₁.client.routes.get? a).isSome → ∃ start, m.started a = some start ∧
        (joined.run before).broker.recordsFrom a start <+:
          (attemptsAt a m.journal).map Attempt.record := by
    subst hsplit
    obtain ⟨hbefore, hafter⟩ := List.forall_mem_append.mp hlets
    obtain ⟨n, hn, hthen⟩ := since_run hm₀ hjoined (hwork.since joined.broker) hbefore
    obtain rfl : n = m₁ := Option.some.inj (hn.symm.trans hm₁)
    rw [run_append] at hm
    exact progress_run (run_sound hjoined before) hn hthen.working hafter hm
  refine ⟨m, hm, ?_, ?_, fun a start hstart => ?_,
    hsince.working.attemptsAt_eq (hsound.member m hmem) hholds, hprogress, ?_⟩
  · obtain ⟨m', hm', hcontinues⟩ := (run_evolves hjoined actions).member i m₀ hm₀
    obtain rfl : m' = m := Option.some.inj (hm'.symm.trans hm)
    exact hcontinues.group.trans hgroup
  · rintro before after now op topic kind handler m₁ rfl hop hm₁
    obtain ⟨hbefore, -⟩ := List.forall_mem_append.mp hlets
    obtain ⟨n, hn, hthen⟩ := since_run hm₀ hjoined (hwork.since joined.broker) hbefore
    rw [run_append] at hm₁
    exact reads_of_registration hn hthen.working now hop hm₁
  · rcases started_run hm₀ hjoined hlets hm hstart with hold | hby
    · rw [hnew a] at hold
      cases hold
    · exact hgroup ▸ hby
  · intro before after m₁ hsplit hm₁ hmany
    refine (hprogress before after m₁ hsplit hm₁).resolve_left fun hle => ?_
    have hlength := hsince.working.length_journal_le (hsound.member m hmem) hholds
    omega

end Bus
end LaneBus
