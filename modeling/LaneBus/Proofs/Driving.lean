import LaneBus.Plugin.Worker
import LaneBus.Proofs.Leading
import LaneBus.Proofs.Polling

/-! # What a worker commits

A worker has two counters and commits in between, and a poll that fails ends its work at once,
without a commit.  `Worker.polls` are the polls that a worker makes, and what they have come to
is one invariant (`Worker.Drove`): the records dispatched are those that the positions have moved
over, the positions have not moved since the last poll that dispatched any, and these are what
is committed.

So **a worker commits exactly what it has dispatched** (`Bus.drive_commits`): when it is done, all
of it, and when a poll fails, what the polls before have dispatched and nothing that the failing
one has taken.
-/
namespace LaneBus

variable {σ : Type}

/-! ## The polls of a worker -/

/-- A poll: the session that makes it, and when. -/
structure Visit (σ : Type) where
  session : Session σ
  now : Timestamp

namespace Visit

variable (v : Visit σ)

/-- What the poll answers. -/
def outcome : Except BusError Nat := (v.session.poll v.now).1

/-- The session after the poll. -/
def after : Session σ := (v.session.poll v.now).2

/-- The records that the poll has dispatched. -/
def count : Nat :=
  match v.outcome with
  | .ok n => n
  | .error _ => 0

end Visit

/-- The last poll that has dispatched something. -/
def lastBusy? (visits : List (Visit σ)) : Option (Visit σ) :=
  visits.reverse.find? fun v => 0 < v.count

theorem lastBusy?_concat (visits : List (Visit σ)) (v : Visit σ) :
    lastBusy? (visits ++ [v]) = if 0 < v.count then some v else lastBusy? visits := by
  rw [lastBusy?, List.reverse_append, List.reverse_singleton, List.singleton_append,
    List.find?_cons]
  by_cases h : 0 < v.count
  · simp [h]
  · simp [h, lastBusy?]

theorem lastBusy?_eq_none_iff {visits : List (Visit σ)} :
    lastBusy? visits = none ↔ (visits.map Visit.count).sum = 0 := by
  rw [lastBusy?, List.find?_eq_none, List.sum_eq_zero_iff_forall_eq_nat]
  simp

/-- The poll that a worker makes in a pass. -/
def Worker.visit (w : Worker σ) (p : Pass) : Visit σ := ⟨(w.receive p.arrivals).session, p.now⟩

/-- The polls that a worker makes, until its work ends or there are no more passes. -/
def Worker.polls (w : Worker σ) : List Pass → List (Visit σ)
  | [] => []
  | p :: rest =>
    w.visit p ::
      match (w.receive p.arrivals).pass p.now with
      | .going w => polls w rest
      | .finished .. => []
      | .failed .. => []

theorem Worker.receive_committed (w : Worker σ) (arrivals : List Outgoing) :
    (w.receive arrivals).session.broker.committed = w.session.broker.committed := by
  unfold receive
  dsimp only
  generalize w.session.broker = b
  induction arrivals generalizing b with
  | nil => rfl
  | cons r rest ih => exact ih _

/-! ## Idle polls in a row -/

/-- So many polls in a row dispatched nothing only at the very end, if at all. -/
def Punctual (limit : Nat) (counts : List Nat) : Prop :=
  ∀ earlier later, counts = earlier ++ List.replicate limit 0 ++ later → later = []

/-- The last polls, so many of them, dispatched nothing, and the one before them did. -/
def Idles (idle : Nat) (counts : List Nat) : Prop :=
  ∃ earlier, counts = earlier ++ List.replicate idle 0 ∧ earlier.getLast? ≠ some 0

namespace Idles

variable {idle limit : Nat} {counts : List Nat}

theorem nil : Idles 0 [] := ⟨[], rfl, by simp⟩

theorem idled (h : Idles idle counts) : Idles (idle + 1) (counts ++ [0]) := by
  obtain ⟨earlier, rfl, hlast⟩ := h
  exact ⟨earlier, by rw [List.replicate_succ', List.append_assoc], hlast⟩

theorem busy (counts : List Nat) {n : Nat} (hn : n ≠ 0) : Idles 0 (counts ++ [n]) :=
  ⟨counts ++ [n], by simp, by simpa using hn⟩

theorem exists_of_le (h : Idles idle counts) (hle : limit ≤ idle) :
    ∃ earlier, counts = earlier ++ List.replicate limit 0 := by
  obtain ⟨earlier, rfl, -⟩ := h
  refine ⟨earlier ++ List.replicate (idle - limit) 0, ?_⟩
  rw [List.append_assoc, List.replicate_append_replicate, Nat.sub_add_cancel hle]

theorem le_of_append (h : Idles idle counts) {earlier : List Nat}
    (heq : counts = earlier ++ List.replicate limit 0) : limit ≤ idle := by
  obtain ⟨before, rfl, hlast⟩ := h
  refine Nat.le_of_not_lt fun hlt => hlast ?_
  -- otherwise the one before the last idle polls would be idle, too
  have hsplit : before = earlier ++ List.replicate (limit - idle) 0 := by
    have hlimit : List.replicate limit 0 =
        List.replicate (limit - idle) 0 ++ List.replicate idle 0 := by
      rw [List.replicate_append_replicate, Nat.sub_add_cancel (Nat.le_of_lt hlt)]
    rw [hlimit, ← List.append_assoc] at heq
    exact List.append_cancel_right heq
  obtain ⟨k, hk⟩ := Nat.exists_eq_add_of_lt hlt
  rw [hsplit, show limit - idle = k + 1 by omega, List.replicate_succ', ← List.append_assoc]
  simp

theorem punctual (h : Idles idle counts) (hgoing : idle < limit) (hp : Punctual limit counts)
    (n : Nat) : Punctual limit (counts ++ [n]) := by
  intro earlier later heq
  rcases later.eq_nil_or_concat with rfl | ⟨others, last, rfl⟩
  · rfl
  · exfalso
    rw [List.concat_eq_append, ← List.append_assoc] at heq
    obtain ⟨heq, -⟩ := List.append_inj' heq rfl
    rw [hp earlier others heq, List.append_nil] at heq
    exact Nat.lt_irrefl _ (Nat.lt_of_lt_of_le hgoing (h.le_of_append heq))

end Idles

/-! ## What the polls have come to -/

namespace Worker

variable {x : Session σ} {limit : Nat} {visits : List (Visit σ)} {w : Worker σ}

/-- **What the polls of a worker have come to**, which began in the session `x`. -/
structure Drove (x : Session σ) (limit : Nat) (visits : List (Visit σ)) (w : Worker σ) :
    Prop where
  wired : w.session.client.Wired
  wiring : x.client.SameWiring w.session.client
  stopped : w.session.client.stopped = x.client.stopped
  running : visits ≠ [] → x.client.stopped = false
  limit_eq : w.options.maxIdlePolls = limit
  answered : ∀ v ∈ visits, ∃ n, v.outcome = .ok n
  dispatched : w.dispatched = (visits.map Visit.count).sum
  idle : Idles w.idle (visits.map Visit.count)
  punctual : Punctual limit (visits.map Visit.count)
  /-- The places have moved over what was dispatched, … -/
  moved : ∃ moved : String → Nat,
    (∀ a p, x.place a = some p → w.session.place a = some (p + moved a)) ∧
      w.dispatched = (x.client.routes.keys.map moved).sum
  /-- … they are where the last poll has left them, -/
  last : ∀ v, visits.getLast? = some v → ∀ a,
    w.session.place a = v.after.client.connection.positions.get? a
  /-- have not moved since the last one that dispatched something, -/
  rested : match lastBusy? visits with
    | none => ∀ a, w.session.place a = x.place a
    | some v => ∀ a, w.session.place a = v.after.client.connection.positions.get? a
  /-- and were committed then. -/
  committed : match lastBusy? visits with
    | none => ∀ g a, w.session.broker.committedOffset g a = x.broker.committedOffset g a
    | some _ => ∀ g a, w.session.broker.committedOffset g a =
      if g = x.client.connection.identity.group then
        (w.session.place a).or (x.broker.committedOffset g a)
      else x.broker.committedOffset g a

theorem Drove.start (hw : x.client.Wired) (limit : Nat) :
    Drove x limit [] { session := x, options := { maxIdlePolls := limit } } where
  wired := hw
  wiring := .refl _
  stopped := rfl
  running hsome := absurd rfl hsome
  limit_eq := rfl
  answered v hv := by cases hv
  dispatched := rfl
  idle := .nil
  punctual earlier later h := (List.append_eq_nil_iff.mp h.symm).2
  moved := ⟨fun _ => 0, fun _ _ h => h, by simp [List.map_const']⟩
  last v hv := by cases hv
  rested _ := rfl
  committed _ _ := rfl

/-- While the places rest, they stay where the last poll that dispatched something left them. -/
theorem Drove.rests (h : Drove x limit visits w) {z : Session σ}
    (hrest : ∀ a, z.place a = w.session.place a) :
    match lastBusy? visits with
    | none => ∀ a, z.place a = x.place a
    | some v => ∀ a, z.place a = v.after.client.connection.positions.get? a := by
  have hrested := h.rested
  cases hbusy : lastBusy? visits with
  | none =>
    rw [hbusy] at hrested
    exact fun a => (hrest a).trans (hrested a)
  | some v =>
    rw [hbusy] at hrested
    exact fun a => (hrest a).trans (hrested a)

/-- While the places rest and nothing is committed, what was committed stays. -/
theorem Drove.keeps (h : Drove x limit visits w) {z : Session σ}
    (hrest : ∀ a, z.place a = w.session.place a)
    (hkept : ∀ g a, z.broker.committedOffset g a = w.session.broker.committedOffset g a) :
    match lastBusy? visits with
    | none => ∀ g a, z.broker.committedOffset g a = x.broker.committedOffset g a
    | some _ => ∀ g a, z.broker.committedOffset g a =
      if g = x.client.connection.identity.group then
        (z.place a).or (x.broker.committedOffset g a)
      else x.broker.committedOffset g a := by
  have hcommits := h.committed
  cases hbusy : lastBusy? visits with
  | none =>
    rw [hbusy] at hcommits
    exact fun g a => (hkept g a).trans (hcommits g a)
  | some v =>
    rw [hbusy] at hcommits
    intro g a
    rw [hkept, hcommits, hrest]

/-- When the places, which are never lost, are committed over what was committed, they are
committed over what was committed at first. -/
theorem Drove.commits (h : Drove x limit visits w) {z : Session σ}
    (hkept : ∀ a q, w.session.place a = some q → (z.place a).isSome)
    (hcommitted : ∀ g a, z.broker.committedOffset g a =
      if g = x.client.connection.identity.group then
        (z.place a).or (w.session.broker.committedOffset g a)
      else w.session.broker.committedOffset g a) (g a : String) :
    z.broker.committedOffset g a =
      if g = x.client.connection.identity.group then
        (z.place a).or (x.broker.committedOffset g a)
      else x.broker.committedOffset g a := by
  have hcommits := h.committed
  rw [hcommitted]
  cases hbusy : lastBusy? visits with
  | none =>
    rw [hbusy] at hcommits
    rw [hcommits]
  | some v =>
    rw [hbusy] at hcommits
    rw [hcommits]
    split
    · cases hq : w.session.place a with
      | none => rfl
      | some q =>
        obtain ⟨r, hr⟩ := Option.isSome_iff_exists.mp (hkept a q hq)
        rw [hr]
        rfl
    · rfl

/-- A poll that goes through adds to what the polls have come to, when what was dispatched is
committed after it. -/
theorem Drove.polled (h : Drove x limit visits w) (hgoing : w.idle < limit) (p : Pass) {n : Nat}
    {y z : Session σ} (hpoll : (w.visit p).session.poll p.now = (.ok n, y))
    (hclient : z.client = y.client) (hcommitted : ∀ g a, z.broker.committedOffset g a =
      if 0 < n ∧ g = y.client.connection.identity.group then
        (y.client.connection.positions.get? a).or (y.broker.committedOffset g a)
      else y.broker.committedOffset g a) :
    Drove x limit (visits ++ [w.visit p])
      { w with
        session := z
        dispatched := w.dispatched + n
        idle := if n = 0 then w.idle + 1 else 0 } := by
  have hpolled := Session.poll_polled (x := (w.visit p).session) h.wired hpoll
  have houtcome : (w.visit p).outcome = .ok n := congrArg Prod.fst hpoll
  have hafter : (w.visit p).after = y := congrArg Prod.snd hpoll
  have hcount : (w.visit p).count = n := by rw [Visit.count, houtcome]
  have hcounts : (visits ++ [w.visit p]).map Visit.count = visits.map Visit.count ++ [n] := by
    rw [List.map_append, List.map_singleton, hcount]
  have hplace (a : String) : z.place a = y.client.connection.positions.get? a := by
    rw [Session.place_of_nil (by rw [hclient]; exact hpolled.told), hclient]
  have hbefore (a : String) : (w.visit p).session.place a = w.session.place a :=
    Session.place_congr (x := w.session) (y := (w.visit p).session) rfl
      (w.receive_committed p.arrivals) a
  have hrested (hzero : n = 0) (a : String) : z.place a = w.session.place a := by
    rw [hplace, ← Session.place_of_nil hpolled.told, hpolled.rested hzero, hbefore]
  have hgroup : y.client.connection.identity.group = x.client.connection.identity.group :=
    congrArg Identity.group (hpolled.wiring.identity.trans h.wiring.identity)
  have hold (g a : String) :
      y.broker.committedOffset g a = w.session.broker.committedOffset g a := by
    rw [Broker.committedOffset, Broker.committedOffset, hpolled.committed]
    exact congrArg (fun t : Table (String × String) Nat => t.get? (g, a))
      (w.receive_committed p.arrivals)
  refine ⟨hclient ▸ hpolled.wired, h.wiring.trans (hpolled.wiring.trans (.of_eq hclient)),
    ?_, fun _ => h.stopped.symm.trans hpolled.running, h.limit_eq, fun v hv => ?_, ?_, ?_, ?_,
    ?_, fun v hv a => ?_, ?_, ?_⟩
  · rw [hclient]
    exact hpolled.stopped.trans h.stopped
  · rcases List.mem_append.mp hv with hv | hv
    · exact h.answered v hv
    · exact ⟨n, List.mem_singleton.mp hv ▸ houtcome⟩
  · rw [hcounts, List.sum_append, ← h.dispatched]
    simp
  · rw [hcounts]
    by_cases hn : n = 0
    · subst hn
      exact h.idle.idled
    · rw [if_neg hn]
      exact .busy _ hn
  · rw [hcounts]
    exact h.idle.punctual hgoing h.punctual n
  · obtain ⟨moved, hmoved, hsum⟩ := h.moved
    obtain ⟨more, hmore, hsum'⟩ := hpolled.moved
    refine ⟨fun a => moved a + more a, fun a q hq => ?_, ?_⟩
    · rw [hplace, ← Session.place_of_nil hpolled.told, ← Nat.add_assoc]
      exact hmore a (q + moved a) ((hbefore a).trans (hmoved a q hq))
    · have hroutes : (w.visit p).session.client.routes = x.client.routes := h.wiring.routes
      rw [hroutes] at hsum'
      rw [List.sum_map_add, ← hsum, ← hsum']
  · rw [List.getLast?_concat] at hv
    rw [← Option.some.inj hv, hafter]
    exact hplace a
  · rw [lastBusy?_concat, hcount]
    by_cases hn : n = 0
    · rw [if_neg (Nat.not_lt.mpr (Nat.le_of_eq hn))]
      exact h.rests (hrested hn)
    · rw [if_pos (Nat.pos_of_ne_zero hn)]
      dsimp only
      rw [hafter]
      exact hplace
  · rw [lastBusy?_concat, hcount]
    by_cases hn : n = 0
    · rw [if_neg (Nat.not_lt.mpr (Nat.le_of_eq hn))]
      refine h.keeps (hrested hn) fun g a => ?_
      rw [hcommitted, if_neg fun hbusy => Nat.ne_of_gt hbusy.1 hn, hold]
    · rw [if_pos (Nat.pos_of_ne_zero hn)]
      refine h.commits (fun a q hq => ?_) fun g a => ?_
      · obtain ⟨more, hmore, -⟩ := hpolled.moved
        have hy := hmore a q ((hbefore a).trans hq)
        rw [Session.place_of_nil hpolled.told] at hy
        rw [hplace, hy]
        rfl
      · rw [hcommitted, hold, hgroup, hplace]
        simp only [Nat.pos_of_ne_zero hn, true_and]

/-! ## How the work ends -/

/-- **What a worker has come to**, after some polls. -/
inductive Ended (x : Session σ) (limit : Nat) (visits : List (Visit σ)) : Turn σ → Prop where
  | going (w : Worker σ) (h : Drove x limit visits w) (hgoing : w.idle < limit) :
    Ended x limit visits (.going w)
  | finished (w : Worker σ) (y : Session σ) (h : Drove x limit visits w) (hidle : limit ≤ w.idle)
      (hbroker : y.broker = w.session.broker) (hstopped : y.client.stopped = true) :
    Ended x limit visits (.finished w.dispatched y)
  | failed (earlier : List (Visit σ)) (w : Worker σ) (p : Pass) (e : BusError) (y : Session σ)
      (hvisits : visits = earlier ++ [w.visit p]) (h : Drove x limit earlier w)
      (hfailed : ∀ reason, (w.visit p).outcome = .error reason →
        e = reason ∧ y = (w.visit p).after) :
    Ended x limit visits (.failed e y)

theorem stop_ok {y z : Session σ} (h : y.stop = (.ok (), z)) : z.client.stopped = true := by
  unfold Session.stop at h
  split at h
  · obtain ⟨-, rfl⟩ := Prod.mk.inj h
    assumption
  · dsimp only at h
    split at h
    · cases h
    · obtain ⟨-, rfl⟩ := Prod.mk.inj h
      rfl

/-- Once the poll has gone through, what fails after it is not the poll. -/
theorem Drove.failed_after (h : Drove x limit visits w) {p : Pass} {n : Nat} {y : Session σ}
    (hpoll : (w.visit p).session.poll p.now = (.ok n, y)) (e : BusError) (z : Session σ) :
    Ended x limit (visits ++ [w.visit p]) (.failed e z) := by
  have houtcome : (w.visit p).outcome = .ok n := congrArg Prod.fst hpoll
  refine .failed visits w p e z rfl h fun reason herr => ?_
  rw [houtcome] at herr
  cases herr

/-- A pass that dispatches nothing sends a heartbeat, and the worker stops when it has been idle
for long enough. -/
theorem Drove.pass_idle (h : Drove x limit visits w) (hgoing : w.idle < limit) (p : Pass)
    {y : Session σ} (hpoll : (w.visit p).session.poll p.now = (.ok 0, y)) :
    Ended x limit (visits ++ [w.visit p]) ((w.receive p.arrivals).pass p.now) := by
  have hpoll' : (w.receive p.arrivals).session.poll p.now = (.ok 0, y) := hpoll
  cases hbeat : y.heartbeat p.now with
  | mk outcome z =>
    cases outcome with
    | error e =>
      have hpass : (w.receive p.arrivals).pass p.now = .failed e z := by
        simp only [Worker.pass, hpoll', hbeat]
      rw [hpass]
      exact h.failed_after hpoll e z
    | ok u =>
      have hclient := y.heartbeat_client p.now
      have hcommitted := (y.heartbeat_logs_committed p.now).2
      rw [hbeat] at hclient hcommitted
      let w' : Worker σ := { w with session := z, idle := w.idle + 1 }
      have hdrove : Drove x limit (visits ++ [w.visit p]) w' :=
        h.polled hgoing p hpoll hclient fun g a => by
          rw [if_neg fun hbusy => Nat.lt_irrefl 0 hbusy.1]
          exact congrArg (fun t : Table (String × String) Nat => t.get? (g, a)) hcommitted
      have hpass : (w.receive p.arrivals).pass p.now =
          if w'.isIdle then w'.stop else .going w' := by
        simp only [Worker.pass, hpoll', hbeat]
        rfl
      have hlimit : w'.isIdle = true ↔ limit ≤ w'.idle := by
        rw [isIdle, hdrove.limit_eq, Bool.and_eq_true, decide_eq_true_eq, decide_eq_true_eq]
        exact and_iff_right (Nat.zero_lt_of_lt hgoing)
      rw [hpass]
      split
      · rename_i hidle
        unfold Worker.stop
        split
        · rename_i y' hstop
          have hbroker := w'.session.stop_broker
          rw [hstop] at hbroker
          exact .finished w' y' hdrove (hlimit.mp hidle) hbroker (stop_ok hstop)
        · exact h.failed_after hpoll _ _
      · rename_i hidle
        exact .going w' hdrove (Nat.lt_of_not_le (mt hlimit.mpr hidle))

/-- A pass that dispatches something commits. -/
theorem Drove.pass_busy (h : Drove x limit visits w) (hgoing : w.idle < limit) (p : Pass)
    {n : Nat} {y : Session σ} (hpoll : (w.visit p).session.poll p.now = (.ok (n + 1), y)) :
    Ended x limit (visits ++ [w.visit p]) ((w.receive p.arrivals).pass p.now) := by
  have hpoll' : (w.receive p.arrivals).session.poll p.now = (.ok (n + 1), y) := hpoll
  cases hcommit : y.commit with
  | mk outcome z =>
    cases outcome with
    | error e =>
      have hpass : (w.receive p.arrivals).pass p.now = .failed e z := by
        simp only [Worker.pass, hpoll', hcommit]
      rw [hpass]
      exact h.failed_after hpoll e z
    | ok u =>
      have hwired := (Session.poll_polled (x := (w.visit p).session) h.wired hpoll).wired
      obtain ⟨hclient, hcommitted⟩ := Session.commit_ok hwired hcommit
      have hdrove := h.polled hgoing p hpoll hclient fun g a => by
        rw [hcommitted]
        simp only [Nat.succ_pos, true_and]
      have hpass : (w.receive p.arrivals).pass p.now = .going { w with
          session := z, dispatched := w.dispatched + (n + 1), idle := 0 } := by
        simp only [Worker.pass, hpoll', hcommit]
        rfl
      rw [hpass]
      exact .going _ hdrove (Nat.zero_lt_of_lt hgoing)

/-- **One pass** goes on, ends the work or fails. -/
theorem Drove.pass (h : Drove x limit visits w) (hgoing : w.idle < limit) (p : Pass) :
    Ended x limit (visits ++ [w.visit p]) ((w.receive p.arrivals).pass p.now) := by
  cases hpoll : (w.receive p.arrivals).session.poll p.now with
  | mk outcome y =>
    cases outcome with
    | error e =>
      have houtcome : (w.visit p).outcome = .error e := congrArg Prod.fst hpoll
      have hpass : (w.receive p.arrivals).pass p.now = .failed e y := by rw [Worker.pass, hpoll]
      rw [hpass]
      refine .failed visits w p e y rfl h fun reason herr => ⟨?_, (congrArg Prod.snd hpoll).symm⟩
      rw [houtcome] at herr
      exact Except.error.inj herr
    | ok n =>
      cases n with
      | zero => exact h.pass_idle hgoing p hpoll
      | succ n => exact h.pass_busy hgoing p hpoll

/-- **All passes.** -/
theorem Drove.drive (h : Drove x limit visits w) (hgoing : w.idle < limit) (passes : List Pass) :
    Ended x limit (visits ++ w.polls passes) (w.drive passes) := by
  induction passes generalizing visits w with
  | nil =>
    rw [polls, List.append_nil]
    exact .going w h hgoing
  | cons p rest ih =>
    have hended := h.pass hgoing p
    unfold Worker.drive polls
    cases hpass : (w.receive p.arrivals).pass p.now with
    | going w' =>
      rw [hpass] at hended
      cases hended with
      | going _ h' hgoing' =>
        rw [← List.singleton_append, ← List.append_assoc]
        exact ih h' hgoing'
    | finished n y =>
      rw [hpass] at hended
      exact hended
    | failed e y =>
      rw [hpass] at hended
      exact hended

/-! ## What is committed in the end -/

/-- **The end of a worker that is done.** -/
structure Finished (x : Session σ) (limit : Nat) (visits : List (Visit σ)) (total : Nat)
    (y : Session σ) : Prop where
  answered : ∀ v ∈ visits, ∃ n, v.outcome = .ok n
  total_eq : total = (visits.map Visit.count).sum
  /-- What was dispatched is how far the positions have moved, and when that is anything at all,
  the last positions are what is committed. -/
  moved : ∃ v, visits.getLast? = some v ∧ ∃ moved : String → Nat,
    total = (x.client.routes.keys.map moved).sum ∧
    ∀ a, (x.client.routes.get? a).isSome → ∃ start, x.place a = some start ∧
      v.after.client.connection.positions.get? a = some (start + moved a) ∧
      (0 < total → y.broker.committedOffset x.client.connection.identity.group a =
        some (start + moved a))
  /-- Otherwise, and for other groups, nothing is committed. -/
  untouched : ∀ g a, total = 0 ∨ g ≠ x.client.connection.identity.group →
    y.broker.committedOffset g a = x.broker.committedOffset g a
  /-- The last polls have dispatched nothing, … -/
  idle : ∃ earlier, visits.map Visit.count = earlier ++ List.replicate limit 0
  /-- … and no so many polls in a row before. -/
  punctual : Punctual limit (visits.map Visit.count)
  stopped : y.client.stopped = true

/-- **The end of a worker whose last poll has failed.** -/
structure Failed (x : Session σ) (earlier : List (Visit σ)) (v : Visit σ) (e : BusError)
    (y : Session σ) : Prop where
  outcome : v.outcome = .error e
  after : y = v.after
  answered : ∀ u ∈ earlier, ∃ n, u.outcome = .ok n
  /-- What is committed are the positions behind the last poll that dispatched something. -/
  committed : ∀ u, lastBusy? earlier = some u → ∀ a, (x.client.routes.get? a).isSome →
    ∃ p, u.after.client.connection.positions.get? a = some p ∧
      y.broker.committedOffset x.client.connection.identity.group a = some p
  /-- If there is none, and for other groups, nothing is committed. -/
  untouched : ∀ g a, lastBusy? earlier = none ∨ g ≠ x.client.connection.identity.group →
    y.broker.committedOffset g a = x.broker.committedOffset g a
  /-- So nothing is committed of what the failing poll has taken. -/
  uncovered : ∀ records z, v.session.gather v.now false = (.ok records, z) → ∀ r ∈ records,
    (y.broker.committedOffset x.client.connection.identity.group r.address).getD 0 ≤ r.offset

/-- Nothing is committed for other groups, or while nothing was dispatched. -/
theorem Drove.untouched (h : Drove x limit visits w) (g a : String)
    (hg : lastBusy? visits = none ∨ g ≠ x.client.connection.identity.group) :
    w.session.broker.committedOffset g a = x.broker.committedOffset g a := by
  have hcommitted := h.committed
  cases hbusy : lastBusy? visits with
  | none =>
    rw [hbusy] at hcommitted
    exact hcommitted g a
  | some u =>
    rw [hbusy] at hcommitted hg
    rw [hcommitted, if_neg (hg.resolve_left (by simp))]

/-- What is committed once something was dispatched are the places. -/
theorem Drove.committed_place (h : Drove x limit visits w) {u : Visit σ}
    (hbusy : lastBusy? visits = some u) {a : String} {p : Nat}
    (hp : w.session.place a = some p) :
    w.session.broker.committedOffset x.client.connection.identity.group a = some p := by
  have hcommitted := h.committed
  rw [hbusy] at hcommitted
  rw [hcommitted, if_pos rfl, hp, Option.some_or]

theorem Drove.finished (h : Drove x limit visits w) (hw : x.client.Wired) (hlimit : 1 ≤ limit)
    (hidle : limit ≤ w.idle) {y : Session σ} (hbroker : y.broker = w.session.broker)
    (hstopped : y.client.stopped = true) : Finished x limit visits w.dispatched y := by
  have hbusy : lastBusy? visits = none ↔ w.dispatched = 0 := by
    rw [h.dispatched]
    exact lastBusy?_eq_none_iff
  have hlast := h.idle.exists_of_le hidle
  refine ⟨h.answered, h.dispatched, ?_, fun g a hg => ?_, hlast, h.punctual, hstopped⟩
  · have hsome : visits ≠ [] := by
      rintro rfl
      obtain ⟨earlier, heq⟩ := hlast
      have hlength := congrArg List.length heq
      rw [List.length_append, List.length_replicate] at hlength
      simp at hlength
      omega
    obtain ⟨moved, hmoved, hsum⟩ := h.moved
    refine ⟨visits.getLast hsome, List.getLast?_eq_some_getLast hsome, moved, hsum, fun a ha => ?_⟩
    obtain ⟨start, hstart⟩ := Option.isSome_iff_exists.mp
      (Client.synced_tracked hw (h.running hsome) x.broker ha)
    refine ⟨start, hstart, ?_, fun htotal => ?_⟩
    · rw [← h.last _ (List.getLast?_eq_some_getLast hsome)]
      exact hmoved a start hstart
    · obtain ⟨u, hu⟩ := Option.ne_none_iff_exists'.mp (mt hbusy.mp (Nat.ne_of_gt htotal))
      rw [hbroker]
      exact h.committed_place hu (hmoved a start hstart)
  · rw [hbroker]
    exact h.untouched g a (hg.imp_left hbusy.mpr)

/-- What is committed does not lie behind a place. -/
theorem Drove.ahead (h : Drove x limit visits w)
    (hx : ∀ a p, x.place a = some p →
      (x.broker.committedOffset x.client.connection.identity.group a).getD 0 ≤ p)
    {a : String} {p : Nat} (hp : w.session.place a = some p) :
    (w.session.broker.committedOffset x.client.connection.identity.group a).getD 0 ≤ p := by
  cases hbusy : lastBusy? visits with
  | none =>
    have hrested := h.rested
    rw [hbusy] at hrested
    rw [h.untouched _ a (.inl hbusy)]
    exact hx a p ((hrested a).symm.trans hp)
  | some u =>
    rw [h.committed_place hbusy hp]
    exact Nat.le_refl p

theorem Drove.failed (h : Drove x limit visits w) (hw : x.client.Wired)
    (hx : ∀ a p, x.place a = some p →
      (x.broker.committedOffset x.client.connection.identity.group a).getD 0 ≤ p)
    {p : Pass} {e : BusError} (herror : (w.visit p).outcome = .error e) :
    Failed x visits (w.visit p) e (w.visit p).after := by
  have hcommitted (g a : String) : (w.visit p).after.broker.committedOffset g a =
      w.session.broker.committedOffset g a := by
    have hgrows : (w.visit p).session.broker.Grows (w.visit p).after.broker :=
      ((w.visit p).session.pass_grows h.wired false).1
    have hsame : (w.visit p).after.broker.committed = w.session.broker.committed :=
      hgrows.committed.trans (w.receive_committed p.arrivals)
    exact congrArg (fun t : Table (String × String) Nat => t.get? (g, a)) hsame
  refine ⟨herror, rfl, h.answered, fun u hu a ha => ?_, fun g a hg => ?_,
    fun records z hgather r hr => ?_⟩
  · have hsome : visits ≠ [] := by
      rintro rfl
      cases hu
    obtain ⟨start, hstart⟩ := Option.isSome_iff_exists.mp
      (Client.synced_tracked hw (h.running hsome) x.broker ha)
    obtain ⟨moved, hmoved, -⟩ := h.moved
    have hplace := hmoved a start hstart
    have hrested := h.rested
    rw [hu] at hrested
    refine ⟨start + moved a, (hrested a).symm.trans hplace, ?_⟩
    rw [hcommitted]
    exact h.committed_place hu hplace
  · rw [hcommitted]
    exact h.untouched g a hg
  · rw [hcommitted]
    rcases Session.gather_cases (x := (w.visit p).session) h.wired hgather with
      ⟨hnil, -⟩ | ⟨hrun, htook⟩
    · obtain rfl : records = [] := hnil
      cases hr
    · -- what is taken at an address begins at its place
      obtain ⟨q, hq⟩ := Option.isSome_iff_exists.mp (Client.synced_tracked h.wired hrun
        (w.visit p).session.broker (htook.known r hr).1)
      obtain ⟨n, hoffsets, -⟩ := htook.advance.tracked r.address q hq
      have hmem : r.offset ∈ offsetsAt r.address records :=
        List.mem_map_of_mem (List.mem_filter.mpr ⟨hr, decide_eq_true rfl⟩)
      change offsetsAt r.address records = _ at hoffsets
      rw [hoffsets] at hmem
      have hplace : w.session.place r.address = some q :=
        (Session.place_congr (x := w.session) (y := (w.visit p).session) rfl
          (w.receive_committed p.arrivals) r.address).symm.trans hq
      exact Nat.le_trans (h.ahead hx hplace) (List.mem_range'_1.mp hmem).1

end Worker

/-- A worker that is about to drive a member. -/
def Member.worker (m : Member σ) (b : Broker) (state : σ) (limit : Nat) : Worker σ where
  session := m.session b state
  options := { maxIdlePolls := limit }

namespace Bus

/-- **A worker commits exactly what it has dispatched.**  Take any run, a member that is the only
one of its group, and whatever others append between the passes of its worker.  When the worker
is done, it has dispatched as many records as the positions have moved over, and these positions
are committed; it has stopped its client after the first so many idle polls in a row.  When a
poll fails, what is committed are the positions behind the last poll that dispatched something,
so nothing that the failing poll has taken. -/
theorem drive_commits (broker : Broker) (state : σ) (actions : List (Action σ)) {i : Nat}
    {m : Member σ} (hm : (run { broker, state } actions).members[i]? = some m)
    (halone : (run { broker, state } actions).Alone i m.group) {limit : Nat} (hlimit : 1 ≤ limit)
    (passes : List LaneBus.Pass) :
    let b := run { broker, state } actions
    let w := m.worker b.broker b.state limit
    (∀ total y, w.drive passes = .finished total y →
      Worker.Finished w.session limit (w.polls passes) total y) ∧
    ∀ e y earlier v, w.drive passes = .failed e y → w.polls passes = earlier ++ [v] →
      (∀ n, v.outcome ≠ .ok n) → Worker.Failed w.session earlier v e y := by
  intro b w
  have hs := run_sound (sound_of_no_members broker state) actions
  have hw := (hs.member m (List.mem_of_getElem? hm)).wired
  have hahead : b.AheadAlone i m.group :=
    run_ahead (sound_of_no_members broker state) (fun m hm => by cases hm) actions halone
  have hended := (Worker.Drove.start (x := w.session) hw limit).drive hlimit passes
  rw [List.nil_append] at hended
  change Worker.Ended w.session limit (w.polls passes) (w.drive passes) at hended
  refine ⟨fun total y hdrive => ?_, fun e y earlier v hdrive hpolls herror => ?_⟩
  · rw [hdrive] at hended
    cases hended with
    | finished w' _ h hidle hbroker hstopped => exact h.finished hw hlimit hidle hbroker hstopped
  · rw [hdrive] at hended
    cases hended with
    | failed earlier' w' p _ _ hvisits h hfailed =>
      obtain ⟨rfl, hv⟩ := List.append_inj' (hpolls.symm.trans hvisits) rfl
      obtain rfl : v = w'.visit p := List.head_eq_of_cons_eq hv
      cases houtcome : (w'.visit p).outcome with
      | ok n => exact absurd houtcome (herror n)
      | error reason =>
        obtain ⟨rfl, rfl⟩ := hfailed reason houtcome
        exact h.failed hw (fun a p hp => (hahead m hm rfl).synced a p hp) houtcome

/-- Records that cannot be read are reported, one in each pass, and the second report cannot be
sent: a worker that stops after an idle poll is done before, and one that has more patience
fails. -/
theorem drive_commits_patience :
    let now : Timestamp := ⟨2024, 1, 1, 0, 0, 0, 0⟩
    let actions : List (Action Unit) := [
      .connect { url := "memory://b", group := "g", client := "c" }
        { plugin := "p", version := "1", host := "h" } ⟨id, fun _ => .refl _⟩,
      .ask 0 now (.subscribe "in" fun (_ : Envelope Json.Value Json.Value) _ outbox state =>
        (.done, outbox, state)),
      .outage 0 { drops := fun b a _ => a == "in-ERROR" && (b.log "in-ERROR").length == 1 }]
    let passes : List LaneBus.Pass :=
      [⟨now, [⟨"in-NORMAL", "?"⟩]⟩, ⟨now, []⟩, ⟨now, [⟨"in-NORMAL", "!"⟩]⟩]
    let b := run { state := () } actions
    ∃ m, b.members[0]? = some m ∧ b.Alone 0 m.group ∧
      (∃ y, Worker.Finished (m.session b.broker ()) 1 ((m.worker b.broker () 1).polls passes) 1 y) ∧
      ∃ earlier v e y, (m.worker b.broker () 2).polls passes = earlier ++ [v] ∧
        earlier.map Visit.count = [1, 0] ∧ Worker.Failed (m.session b.broker ()) earlier v e y := by
  intro now actions passes b
  have halone (m : Member Unit) : b.Alone 0 m.group := by
    intro j n hn _
    match j with
    | 0 => rfl
    | j + 1 => cases hn
  obtain ⟨m, hm, hdone, hfails, hcounts, hanswered⟩ : ∃ m, b.members[0]? = some m ∧
      (match (m.worker b.broker () 1).drive passes with
        | .finished n _ => n == 1
        | _ => false) = true ∧
      (match (m.worker b.broker () 2).drive passes with
        | .failed .. => true
        | _ => false) = true ∧
      ((m.worker b.broker () 2).polls passes).map Visit.count = [1, 0, 0] ∧
      ((m.worker b.broker () 2).polls passes).map (fun v => v.outcome.toOption.isSome) =
        [true, true, false] :=
    ⟨_, rfl, by decide +kernel, by decide +kernel, by decide +kernel, by decide +kernel⟩
  refine ⟨m, hm, halone m, ?_, ?_⟩
  · have hfinished := (drive_commits {} () actions hm (halone m) (Nat.le_refl 1) passes).1
    cases hdrive : (m.worker b.broker () 1).drive passes with
    | finished n y =>
      rw [hdrive] at hdone
      obtain rfl : n = 1 := by simpa using hdone
      exact ⟨y, hfinished 1 y hdrive⟩
    | going w => rw [hdrive] at hdone; cases hdone
    | failed e y => rw [hdrive] at hdone; cases hdone
  · have hfailed := (drive_commits {} () actions hm (halone m) (Nat.le_succ 1) passes).2
    cases hdrive : (m.worker b.broker () 2).drive passes with
    | failed e y =>
      cases hpolls : (m.worker b.broker () 2).polls passes using List.reverseRecOn with
      | nil => rw [hpolls] at hcounts; cases hcounts
      | append_singleton earlier v =>
        rw [hpolls, List.map_append] at hcounts hanswered
        have hcounts : earlier.map Visit.count ++ [v.count] = [1, 0] ++ [0] := hcounts
        have hanswered : earlier.map (fun v => v.outcome.toOption.isSome) ++
            [v.outcome.toOption.isSome] = [true, true] ++ [false] := hanswered
        refine ⟨earlier, v, e, y, rfl, (List.append_inj' hcounts rfl).1,
          hfailed e y earlier v hdrive hpolls fun n hok => ?_⟩
        have hlast := (List.append_inj' hanswered rfl).2
        rw [hok] at hlast
        cases hlast
    | going w => rw [hdrive] at hfails; cases hfails
    | finished n y => rw [hdrive] at hfails; cases hfails

end Bus
end LaneBus
