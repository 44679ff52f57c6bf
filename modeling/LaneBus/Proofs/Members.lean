import LaneBus.Proofs.Passes

/-! # Members of a bus

A member is a client together with its history: every attempt it has made, and
for every address the offset at which its connection started to read.  Neither is
kept by the program; both are read off its operations from outside
(`Member.after`).

`Operation.perform_effect` says what one operation can do to a client: leave its
positions alone, lose them by closing, or move them over the attempts it makes.
`Operation.perform_broker` says what it can do to the broker: let logs grow, and
commit positions for the group of the client.  From the first alone it follows that every
operation keeps a member sound (`Member.Sound.after`): its attempts at an address
go through the offsets in order from the start, and the position is behind those
that were completed.
-/
namespace LaneBus

open Json

/-! ## Operations -/

/-- What a client can be asked to do.  A poll that finds no priority records and
has to wait is asked for in two halves, so that others can act in between. -/
inductive Operation (σ : Type) : Type 1 where
  | subscribe {I P : Type} [Decode I] [Decode P] [Encode I] [Encode P] (topic : String)
      (callback : Callback σ I P)
  | subscribeWith {I P : Type} [Decode I] [Decode P] (topic : String)
      (callback : Callback σ I P) (onError : ErrorHandler σ I P)
  | subscribeErrors (topic : String) (callback : MonitorCallback σ)
  | publish {T : Type} [Encode T] (value : T) (topic : String) (lane : Lane)
  | publishDerived {U T : Type} [Encode U] [Encode T] (input : U) (value : T) (topic : String)
      (lane : Lane)
  | publishError {U : Type} [Encode U] (input : U) (failure : Failure) (topic : String)
  | poll
  /-- A poll up to where it waits. -/
  | listen
  /-- A poll from where it waits on. -/
  | resume
  | commit
  | heartbeat
  | stop

/-- The session with a registration, if it was not refused. -/
def Session.registered {σ : Type} (x : Session σ) : Except BusError (Client σ) → Session σ
  | .error _ => x
  | .ok client => { x with client }

namespace Operation

variable {σ : Type}

/-- The session after an operation, whether or not it failed. -/
def perform (now : Timestamp) (x : Session σ) : Operation σ → Session σ
  | subscribe topic callback => x.registered (x.client.subscribe topic callback)
  | subscribeWith topic callback onError =>
    x.registered (x.client.subscribeWith topic callback onError)
  | subscribeErrors topic callback => x.registered (x.client.subscribeErrors topic callback)
  | publish value topic lane => (x.publish now value topic lane).2
  | publishDerived input value topic lane => (x.publishDerived now input value topic lane).2
  | publishError input failure topic => (x.publishError now input failure topic).2
  | poll => (x.poll now).2
  | listen => x.listen.2
  | resume => (x.pass now true).2
  | commit => x.commit.2
  | heartbeat => (x.heartbeat now).2
  | stop => x.stop.2

/-- The attempts that an operation makes. -/
def attempts (now : Timestamp) (x : Session σ) : Operation σ → List Attempt
  | poll => x.passAttempts now false
  | resume => x.passAttempts now true
  | _ => []

end Operation

/-! ## What an operation does to a client -/

/-- A client `c'` comes of a client `c` on a broker by an operation that makes the
attempts `ts`. -/
structure Effect {σ : Type} (b : Broker) (c : Client σ) (ts : List Attempt) (c' : Client σ) :
    Prop where
  wired : c'.Wired
  identity : c'.connection.identity = c.connection.identity
  running : c'.stopped = false → c.stopped = false
  positions :
    (ts = [] ∧ (c'.connection.positions = c.connection.positions ∨
      c'.stopped = true ∧ c'.connection.positions = .empty)) ∨
    (c.stopped = false ∧ Progress (c.synced b).connection.positions ts c'.connection.positions)

namespace Effect

variable {σ : Type} {b : Broker} {c c' : Client σ}

theorem refl (hw : c.Wired) : Effect b c [] c :=
  ⟨hw, rfl, id, .inl ⟨rfl, .inl rfl⟩⟩

theorem registered {x : Session σ} (hw : x.client.Wired) {topic : String}
    {kind : SubscriptionKind} {handler : Handler σ} :
    Effect b x.client []
      (x.registered (if x.client.stopped then .error .stopped
        else .ok (x.client.register topic kind handler))).client := by
  split
  · exact .refl hw
  · rename_i hrun
    have hconn := x.client.register_connection topic kind handler
    exact ⟨Client.register_wired hw topic kind handler, by rw [Session.registered, hconn],
      fun _ => by simpa using hrun, .inl ⟨rfl, .inl (by rw [Session.registered, hconn])⟩⟩

theorem passed {x y : Session σ} {ts : List Attempt} (hw : x.client.Wired)
    (hrun : x.client.stopped = false)
    (h : ({ x with client := x.client.synced x.broker } : Session σ).Passed ts y) :
    Effect x.broker x.client ts y.client := by
  obtain ⟨positions, hclient⟩ := h.client
  have hws := Client.synced_wired hw x.broker
  refine ⟨?_, by rw [hclient]; rfl, fun _ => hrun, .inr ⟨hrun, h.progress⟩⟩
  refine ⟨?_, ?_, ?_, fun _ a ha => ?_⟩
  · rw [hclient]; exact hws.routed
  · rw [hclient]; exact hws.seekable
  · rw [hclient]; exact hws.opened
  · rw [hclient] at ha
    have hsome := Client.synced_tracked hw hrun x.broker ha
    obtain ⟨p, hp⟩ := Option.isSome_iff_exists.mp hsome
    obtain ⟨-, hafter⟩ := h.progress.tracked a p hp
    exact .inr (by rw [hafter]; rfl)

end Effect

namespace Session

variable {σ : Type} {now : Timestamp}

theorem sendWrapped_steady (x : Session σ) (wrapped : Except BusError Outgoing) :
    x.Steady (x.sendWrapped wrapped).2 := by
  cases wrapped with
  | error e => exact .refl x
  | ok r => exact x.send_steady r

theorem publish_steady {T : Type} [Encode T] (x : Session σ) (now : Timestamp) (value : T)
    (topic : String) (lane : Lane) : x.Steady (x.publish now value topic lane).2 := by
  unfold publish
  split
  · exact .refl x
  · exact x.sendWrapped_steady _

theorem publishDerived_steady {U T : Type} [Encode U] [Encode T] (x : Session σ)
    (now : Timestamp) (input : U) (value : T) (topic : String) (lane : Lane) :
    x.Steady (x.publishDerived now input value topic lane).2 := by
  unfold publishDerived
  split
  · exact .refl x
  · exact x.sendWrapped_steady _

theorem publishError_steady {U : Type} [Encode U] (x : Session σ) (now : Timestamp) (input : U)
    (failure : Failure) (topic : String) :
    x.Steady (x.publishError now input failure topic).2 := by
  unfold publishError
  split
  · exact .refl x
  · exact x.sendWrapped_steady _

theorem pass_effect (x : Session σ) (hw : x.client.Wired) (waited : Bool) :
    Effect x.broker x.client (x.passAttempts now waited) (x.pass now waited).2.client := by
  rcases pass_cases hw now waited with ⟨hnil, hsame⟩ | ⟨hrun, hpassed⟩
  · rw [hnil, hsame]; exact .refl hw
  · exact .passed hw hrun hpassed

theorem stop_effect (x : Session σ) (hw : x.client.Wired) : Effect x.broker x.client [] x.stop.2.client := by
  have hwired (connection : Connection) (h : connection.outage.seek = false) :
      ({ x.client with stopped := true, connection } : Client σ).Wired :=
    ⟨hw.routed, h, fun hs => (by cases hs), fun hs => (by cases hs)⟩
  unfold stop
  split
  · exact .refl hw
  · dsimp only
    cases hclose : x.client.connection.close with
    | error e => exact ⟨hwired _ hw.seekable, rfl, fun hs => (by cases hs), .inl ⟨rfl, .inl rfl⟩⟩
    | ok connection =>
      obtain rfl : { x.client.connection with positions := .empty, closed := true } = connection := by
        unfold Connection.close at hclose
        split at hclose
        · cases hclose
        · exact Except.ok.inj hclose
      exact ⟨hwired _ hw.seekable, rfl, fun hs => (by cases hs), .inl ⟨rfl, .inr ⟨rfl, rfl⟩⟩⟩

theorem listen_effect (x : Session σ) (hw : x.client.Wired) :
    Effect x.broker x.client [] x.listen.2.client := by
  rcases x.listen_cases with ⟨hrun, hok⟩ | ⟨e, herr⟩
  · rw [hok]
    exact .passed hw hrun (.refl _)
  · rw [herr]; exact .refl hw

theorem commit_client (x : Session σ) : x.commit.2.client = x.client := by
  unfold commit
  split
  · rfl
  · split <;> rfl

theorem heartbeat_client (x : Session σ) (now : Timestamp) :
    (x.heartbeat now).2.client = x.client := by
  unfold heartbeat
  split
  · rfl
  · split <;> rfl

end Session

namespace Operation

variable {σ : Type} {x : Session σ}

/-- **What an operation does to its client.** -/
theorem perform_effect (hw : x.client.Wired) (now : Timestamp) (op : Operation σ) :
    Effect x.broker x.client (op.attempts now x) (op.perform now x).client := by
  have hsame {y : Session σ} (h : y.client = x.client) : Effect x.broker x.client [] y.client :=
    h.symm ▸ .refl hw
  cases op with
  | subscribe topic callback => exact .registered hw
  | subscribeWith topic callback onError => exact .registered hw
  | subscribeErrors topic callback => exact .registered hw
  | publish value topic lane => exact hsame (x.publish_steady now value topic lane).client
  | publishDerived input value topic lane =>
    exact hsame (x.publishDerived_steady now input value topic lane).client
  | publishError input failure topic =>
    exact hsame (x.publishError_steady now input failure topic).client
  | poll => exact x.pass_effect hw false
  | listen => exact x.listen_effect hw
  | resume => exact x.pass_effect hw true
  | commit => exact hsame x.commit_client
  | heartbeat => exact hsame (x.heartbeat_client now)
  | stop => exact x.stop_effect hw

end Operation

/-! ## What an operation does to the broker -/

/-- Logs may have grown, and a group may have committed some of its positions. -/
structure Broker.Commits (b : Broker) (group : String) (positions : Table String Nat)
    (b' : Broker) : Prop where
  log : ∀ a, b.log a <+: b'.log a
  committed : ∀ g a, b'.committedOffset g a = b.committedOffset g a ∨
    g = group ∧ ∃ p, positions.get? a = some p ∧ b'.committedOffset g a = some p

theorem Broker.Grows.commits {b b' : Broker} (h : b.Grows b') (group : String)
    (positions : Table String Nat) : b.Commits group positions b' :=
  ⟨h.log, fun g a => .inl (by rw [committedOffset, committedOffset, h.committed])⟩

theorem Broker.logs_commitAll (b : Broker) (group : String) (entries : List (String × Nat)) :
    (entries.foldl (fun b (a, p) => b.commit group a p) b).logs = b.logs := by
  induction entries generalizing b with
  | nil => rfl
  | cons e rest ih => exact ih _

/-- Committing positions binds each of them to its address for the group. -/
theorem Broker.committedOffset_commitAll (b : Broker) (group : String)
    {entries : List (String × Nat)} (hnodup : (entries.map Prod.fst).Nodup) (g a : String) :
    (entries.foldl (fun b (a, p) => b.commit group a p) b).committedOffset g a =
      if g = group then (Table.valueAmong? a entries).or (b.committedOffset g a)
      else b.committedOffset g a := by
  induction entries generalizing b with
  | nil => simp [Table.valueAmong?]
  | cons e rest ih =>
    obtain ⟨address, position⟩ := e
    obtain ⟨hfresh, hrest⟩ := List.nodup_cons.mp hnodup
    have hcommit : (b.commit group address position).committedOffset g a =
        if (group, address) = (g, a) then some position else b.committedOffset g a :=
      Table.get?_insert ..
    rw [List.foldl_cons, ih _ hrest, hcommit, Table.valueAmong?]
    by_cases hg : g = group
    · subst hg
      by_cases ha : address = a
      · subst ha
        simp [Table.valueAmong?_eq_none hfresh]
      · simp [ha]
    · simp [hg, Ne.symm hg]

/-- A commit of a connection binds its positions to the addresses for its own group. -/
theorem Connection.committedOffset_commit {c : Connection} {b b' : Broker}
    (h : c.commit b = .ok b') (g a : String) : b'.committedOffset g a =
      if g = c.identity.group then (c.positions.get? a).or (b.committedOffset g a)
      else b.committedOffset g a := by
  unfold commit at h
  split at h
  · cases h
  · obtain rfl := Except.ok.inj h
    exact b.committedOffset_commitAll c.identity.group c.positions.nodup g a

namespace Session

variable {σ : Type} {now : Timestamp}

/-- Nothing but a call that is down keeps a running client from committing. -/
def Commits (x : Session σ) : Prop :=
  x.client.stopped = false ∧ x.client.connection.outage.commit = false

instance (x : Session σ) : Decidable x.Commits := by unfold Commits; infer_instance

/-- **A commit** writes the position of every address that the connection knows for
the group of the client, whether or not the position lies before what the group has
committed so far. -/
theorem commit_eq {x : Session σ} (hw : x.client.Wired) :
    x.commit.2.broker.logs = x.broker.logs ∧ ∀ g a, x.commit.2.broker.committedOffset g a =
      if x.Commits ∧ g = x.client.connection.identity.group then
        (x.client.connection.positions.get? a).or (x.broker.committedOffset g a)
      else x.broker.committedOffset g a := by
  unfold commit Connection.commit Connection.usable
  cases hrun : x.client.stopped with
  | true => exact ⟨rfl, fun g a => by simp [Commits, hrun]⟩
  | false =>
    rw [if_neg Bool.false_ne_true]
    cases hup : x.client.connection.outage.commit with
    | true => exact ⟨rfl, fun g a => by simp [Commits, hup]⟩
    | false =>
      simp only [hw.opened hrun, Bool.false_eq_true, if_false]
      refine ⟨Broker.logs_commitAll .., fun g a => ?_⟩
      rw [Broker.committedOffset_commitAll _ _ x.client.connection.positions.nodup]
      simp only [Commits, hrun, hup, and_self, true_and]
      rfl

theorem commit_commits (x : Session σ) (hw : x.client.Wired) :
    x.broker.Commits x.client.connection.identity.group x.client.connection.positions
      x.commit.2.broker := by
  obtain ⟨hlogs, hcommitted⟩ := commit_eq hw
  refine ⟨fun a => Broker.log_of_logs hlogs a ▸ List.prefix_rfl, fun g a => ?_⟩
  rw [hcommitted]
  split
  · rename_i h
    cases hp : x.client.connection.positions.get? a with
    | none => exact .inl rfl
    | some p => exact .inr ⟨h.2, p, rfl, rfl⟩
  · exact .inl rfl

/-- A sign of life leaves logs and commits alone. -/
theorem heartbeat_logs_committed (x : Session σ) (now : Timestamp) :
    (x.heartbeat now).2.broker.logs = x.broker.logs ∧
      (x.heartbeat now).2.broker.committed = x.broker.committed := by
  unfold heartbeat
  split
  · exact ⟨rfl, rfl⟩
  · split
    · exact ⟨rfl, rfl⟩
    · rename_i broker hbeat
      unfold Connection.heartbeat at hbeat
      split at hbeat
      · cases hbeat
      · cases hbeat
        exact ⟨rfl, rfl⟩

theorem listen_broker (x : Session σ) : x.listen.2.broker = x.broker := by
  rcases x.listen_cases with ⟨-, hok⟩ | ⟨e, herr⟩
  · rw [hok]
  · rw [herr]

theorem stop_broker (x : Session σ) : x.stop.2.broker = x.broker := by
  unfold stop
  split
  · rfl
  · dsimp only
    split <;> rfl

theorem pass_grows (x : Session σ) (hw : x.client.Wired) (waited : Bool) :
    x.broker.Grows (x.pass now waited).2.broker ∧
      ∀ t ∈ x.passAttempts now waited, (x.pass now waited).2.broker.Holds t.record := by
  rcases pass_cases hw now waited with ⟨hnil, hsame⟩ | ⟨-, hpassed⟩
  · rw [hnil, hsame]
    exact ⟨.refl _, fun t ht => (by cases ht)⟩
  · exact ⟨hpassed.grows, hpassed.holds⟩

end Session

namespace Operation

variable {σ : Type} {x : Session σ}

/-- Whether an operation asks for a commit. -/
def isCommit : Operation σ → Bool
  | commit => true
  | _ => false

/-- Operations other than a commit only let logs grow. -/
theorem perform_grows (hw : x.client.Wired) (now : Timestamp) {op : Operation σ}
    (h : op.isCommit = false) : x.broker.Grows (op.perform now x).broker := by
  have hsame {y : Session σ} (h : y.broker = x.broker) : x.broker.Grows y.broker := by
    rw [h]; exact .refl _
  have hregistered (c : Except BusError (Client σ)) : (x.registered c).broker = x.broker := by
    cases c <;> rfl
  cases op with
  | subscribe topic callback => exact hsame (hregistered _)
  | subscribeWith topic callback onError => exact hsame (hregistered _)
  | subscribeErrors topic callback => exact hsame (hregistered _)
  | publish value topic lane => exact (x.publish_steady now value topic lane).grows
  | publishDerived input value topic lane =>
    exact (x.publishDerived_steady now input value topic lane).grows
  | publishError input failure topic =>
    exact (x.publishError_steady now input failure topic).grows
  | poll => exact (x.pass_grows hw false).1
  | listen => exact hsame x.listen_broker
  | resume => exact (x.pass_grows hw true).1
  | commit => cases h
  | heartbeat =>
    obtain ⟨hlogs, hcommitted⟩ := x.heartbeat_logs_committed now
    exact .of_logs hlogs hcommitted
  | stop => exact hsame x.stop_broker

/-- **What an operation does to the broker.** -/
theorem perform_broker (hw : x.client.Wired) (now : Timestamp) (op : Operation σ) :
    x.broker.Commits x.client.connection.identity.group x.client.connection.positions
      (op.perform now x).broker := by
  cases hop : op.isCommit with
  | false => exact (perform_grows hw now hop).commits ..
  | true =>
    cases op with
    | commit => exact x.commit_commits hw
    | _ => cases hop

/-- Whatever is attempted is in the logs. -/
theorem attempts_holds (hw : x.client.Wired) (now : Timestamp) (op : Operation σ) :
    ∀ t ∈ op.attempts now x, (op.perform now x).broker.Holds t.record := by
  cases op with
  | poll => exact (x.pass_grows hw false).2
  | resume => exact (x.pass_grows hw true).2
  | _ => intro t ht; cases ht

end Operation

/-! ## Members -/

/-- A client and its history. -/
structure Member (σ : Type) where
  client : Client σ
  journal : List Attempt := []
  /-- The offset at which the connection started to read an address. -/
  started : String → Option Nat := fun _ => none

namespace Member

variable {σ : Type} (m : Member σ) (b : Broker) (state : σ) (now : Timestamp) (op : Operation σ)

/-- The consumer group of a member. -/
def group : String := m.client.connection.identity.group

/-- The position of a member at an address. -/
def position? (a : String) : Option Nat := m.client.connection.positions.get? a

/-- The member at work. -/
def session : Session σ := { client := m.client, broker := b, state }

/-- The member after an operation.  An address that the connection has got to know
starts at what the group had committed, or else at the first record. -/
def after : Member σ where
  client := (op.perform now (m.session b state)).client
  journal := m.journal ++ op.attempts now (m.session b state)
  started a :=
    if (m.position? a).isNone &&
        ((op.perform now (m.session b state)).client.connection.positions.get? a).isSome then
      some ((b.committedOffset m.group a).getD 0)
    else m.started a

theorem started_after (a : String) :
    (m.after b state now op).started a = some ((b.committedOffset m.group a).getD 0) ∨
      (m.after b state now op).started a = m.started a := by
  dsimp only [after]
  split
  · exact .inl rfl
  · exact .inr rfl

/-- **How a member stands to an address.**  It has not read it yet; or it reads it,
its attempts are in order and its position is behind what it has completed; or it
has closed its connection. -/
inductive Standing (a : String) : Prop where
  | unread (hs : m.started a = none) (hp : m.position? a = none)
      (hj : attemptsAt a m.journal = [])
  | reading (start : Nat) (hs : m.started a = some start)
      (hp : m.position? a = some (start + completedCount (attemptsAt a m.journal)))
      (hj : InOrder start (attemptsAt a m.journal))
  | closed (start : Nat) (hs : m.started a = some start) (hp : m.position? a = none)
      (hj : InOrder start (attemptsAt a m.journal)) (hstop : m.client.stopped = true)

/-- **The invariant of a member.** -/
structure Sound : Prop where
  wired : m.client.Wired
  standing : ∀ a, m.Standing a

variable {m b state now op}

theorem Sound.inOrder (h : m.Sound) {a : String} {start : Nat} (hs : m.started a = some start) :
    InOrder start (attemptsAt a m.journal) := by
  cases h.standing a with
  | unread hnone hp hj => rw [hs] at hnone; cases hnone
  | reading start' hstart hp hj =>
    obtain rfl : start = start' := Option.some.inj (hs.symm.trans hstart)
    exact hj
  | closed start' hstart hp hj hstop =>
    obtain rfl : start = start' := Option.some.inj (hs.symm.trans hstart)
    exact hj

theorem Sound.attemptsAt_eq_nil (h : m.Sound) {a : String} (hs : m.started a = none) :
    attemptsAt a m.journal = [] := by
  cases h.standing a with
  | unread _ _ hj => exact hj
  | reading _ hstart _ _ => rw [hs] at hstart; cases hstart
  | closed _ hstart _ _ _ => rw [hs] at hstart; cases hstart

theorem started_of_kept {a : String} (h : (m.after b state now op).position? a = m.position? a ∨
    (m.after b state now op).position? a = none) :
    (m.after b state now op).started a = m.started a := by
  refine if_neg fun hnew => ?_
  rw [Bool.and_eq_true, Option.isNone_iff_eq_none] at hnew
  obtain ⟨hbefore, hafter⟩ : m.position? a = none ∧
      ((m.after b state now op).position? a).isSome = true := hnew
  rcases h with h | h
  · rw [h, hbefore] at hafter; cases hafter
  · rw [h] at hafter; cases hafter

theorem started_of_new {a : String} (h : m.position? a = none)
    (h' : ((m.after b state now op).position? a).isSome) :
    (m.after b state now op).started a = some ((b.committedOffset m.group a).getD 0) := by
  refine if_pos ?_
  rw [h]
  exact h'

/-- The positions have been left alone, or the connection has been closed. -/
theorem Standing.kept {a : String} (h : m.Standing a)
    (hts : op.attempts now (m.session b state) = [])
    (hstop : m.client.stopped = true → (m.after b state now op).client.stopped = true)
    (hpos : (m.after b state now op).position? a = m.position? a ∨
      (m.after b state now op).client.stopped = true ∧
        (m.after b state now op).position? a = none) :
    (m.after b state now op).Standing a := by
  have hjournal : (m.after b state now op).journal = m.journal := by
    rw [after, hts, List.append_nil]
  have hstarted := started_of_kept (b := b) (hpos.imp_right And.right)
  cases h with
  | unread hs hp hj =>
    refine .unread (hstarted.trans hs) ?_ (hjournal ▸ hj)
    rcases hpos with h | ⟨-, h⟩
    · exact h.trans hp
    · exact h
  | reading start hs hp hj =>
    rcases hpos with h | ⟨hstopped, h⟩
    · exact .reading start (hstarted.trans hs) (by rw [hjournal, h, hp]) (hjournal ▸ hj)
    · exact .closed start (hstarted.trans hs) h (hjournal ▸ hj) hstopped
  | closed start hs hp hj hstopped =>
    refine .closed start (hstarted.trans hs) ?_ (hjournal ▸ hj) (hstop hstopped)
    rcases hpos with h | ⟨-, h⟩
    · exact h.trans hp
    · exact h

/-- A start stays what it is. -/
theorem Standing.started {a : String} (h : m.Standing a) {start : Nat}
    (hs : m.started a = some start)
    (hpos : m.client.stopped = true → (m.after b state now op).position? a = none) :
    (m.after b state now op).started a = some start := by
  refine (if_neg fun hnew => ?_).trans hs
  rw [Bool.and_eq_true, Option.isNone_iff_eq_none] at hnew
  obtain ⟨hbefore, hafter⟩ : m.position? a = none ∧
      ((m.after b state now op).position? a).isSome = true := hnew
  cases h with
  | unread hnone _ _ => rw [hs] at hnone; cases hnone
  | reading _ _ hp _ => rw [hp] at hbefore; cases hbefore
  | closed _ _ _ _ hstop => rw [hpos hstop] at hafter; cases hafter

/-- The positions have moved over attempts. -/
theorem Standing.moved {a : String} (h : m.Standing a) (hrun : m.client.stopped = false)
    (hprogress : Progress (m.client.synced b).connection.positions
      (op.attempts now (m.session b state))
      (op.perform now (m.session b state)).client.connection.positions) :
    (m.after b state now op).Standing a := by
  have hsynced := m.client.get?_synced b a
  have hjournal : attemptsAt a (m.after b state now op).journal =
      attemptsAt a m.journal ++ attemptsAt a (op.attempts now (m.session b state)) :=
    attemptsAt_append ..
  cases h with
  | unread hs hp hj =>
    change m.client.connection.positions.get? a = none at hp
    rw [hj, List.nil_append] at hjournal
    rw [hp, Option.none_or] at hsynced
    -- the operation makes the address known, or does not know it either
    by_cases hnew : a ∈ m.client.unsynced
    · rw [if_pos hnew] at hsynced
      obtain ⟨hin, hafter⟩ := hprogress.tracked a _ hsynced
      rw [← hjournal] at hin hafter
      exact .reading _ (started_of_new hp (by rw [position?, after, hafter]; rfl)) hafter hin
    · rw [if_neg hnew] at hsynced
      obtain ⟨hnil, hafter⟩ := hprogress.untracked a hsynced
      exact .unread ((started_of_kept (.inr hafter)).trans hs) hafter (hjournal.trans hnil)
  | reading start hs hp hj =>
    change m.client.connection.positions.get? a = _ at hp
    rw [hp, Option.some_or] at hsynced
    obtain ⟨hin, hafter⟩ := hprogress.tracked a _ hsynced
    -- the new attempts go on where the journal ends
    refine .reading start ?_ ?_ ?_
    · exact (Standing.reading start hs hp hj).started hs fun hstop => by
        rw [hrun] at hstop
        cases hstop
    · rw [hjournal, completedCount_append, ← Nat.add_assoc]
      exact hafter
    · rw [hjournal, InOrder.append]
      exact ⟨hj, hin⟩
  | closed start hs hp hj hstop =>
    rw [hrun] at hstop
    cases hstop

variable (b state now op)

/-- **Every operation keeps a member sound**, and the starts that it has. -/
theorem Sound.after (h : m.Sound) : (m.after b state now op).Sound ∧
    ∀ a start, m.started a = some start → (m.after b state now op).started a = some start := by
  have heffect := op.perform_effect (x := m.session b state) h.wired now
  have hstop (hstopped : m.client.stopped = true) :
      (m.after b state now op).client.stopped = true := by
    cases hafter : (m.after b state now op).client.stopped with
    | true => rfl
    | false =>
      have hrun : m.client.stopped = false := heffect.running hafter
      rw [hstopped] at hrun
      cases hrun
  -- an operation attempts nothing, or only moves positions over what it attempts
  rcases heffect.positions with ⟨hts, hpos⟩ | ⟨hrun, hprogress⟩
  · have hkept (a : String) : (m.after b state now op).position? a = m.position? a ∨
        (m.after b state now op).client.stopped = true ∧
          (m.after b state now op).position? a = none := by
      rcases hpos with hsame | ⟨hstopped, hempty⟩
      · left; rw [position?, Member.after, hsame]; rfl
      · right; exact ⟨hstopped, by rw [position?, Member.after, hempty]; rfl⟩
    refine ⟨⟨heffect.wired, fun a => (h.standing a).kept hts hstop (hkept a)⟩,
      fun a start hs => ?_⟩
    rw [started_of_kept ((hkept a).imp_right And.right), hs]
  · refine ⟨⟨heffect.wired, fun a => (h.standing a).moved hrun hprogress⟩,
      fun a start hs => (h.standing a).started hs fun hstopped => ?_⟩
    change m.client.stopped = false at hrun
    rw [hrun] at hstopped
    cases hstopped

theorem Sound.group_after (h : m.Sound) : (m.after b state now op).group = m.group :=
  congrArg Identity.group (op.perform_effect (x := m.session b state) h.wired now).identity

end Member
end LaneBus
