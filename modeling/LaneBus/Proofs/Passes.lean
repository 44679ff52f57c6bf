import LaneBus.Proofs.Dispatch
import LaneBus.Proofs.Wiring

/-! # Passes

A pass tells the connection about new addresses, takes records, and dispatches
them.  Taking them moves the read positions behind all of them at once, before
any is dispatched, and the records of several addresses are then mixed and sorted
by urgency.  This module proves that the positions come out right all the same:
whether the pass succeeds or fails, an address ends up exactly as far behind its
old position as records of it were completed, and its attempts go through the
offsets in order (`Session.pass_cases`).
-/
namespace LaneBus

/-! ## Attempts in order -/

/-- The attempts at one address. -/
def attemptsAt (a : String) (ts : List Attempt) : List Attempt :=
  ts.filter fun t => t.record.address = a

@[simp] theorem attemptsAt_append (a : String) (ts ts' : List Attempt) :
    attemptsAt a (ts ++ ts') = attemptsAt a ts ++ attemptsAt a ts' := by
  simp [attemptsAt]

/-- How many attempts have completed their record. -/
def completedCount (ts : List Attempt) : Nat := ts.countP (·.completed)

@[simp] theorem completedCount_append (ts ts' : List Attempt) :
    completedCount (ts ++ ts') = completedCount ts + completedCount ts' := by
  simp [completedCount]

/-- Attempts go through the offsets from `start` on: each is at the first offset
that has not been completed yet. -/
def InOrder : Nat → List Attempt → Prop
  | _, [] => True
  | start, t :: rest =>
    t.record.offset = start ∧ InOrder (if t.completed then start + 1 else start) rest

theorem completedCount_cons (t : Attempt) (ts : List Attempt) :
    completedCount (t :: ts) = completedCount ts + if t.completed then 1 else 0 := by
  simp [completedCount, List.countP_cons]

namespace InOrder

variable {start : Nat} {ts ts' : List Attempt}

theorem append : InOrder start (ts ++ ts') ↔
    InOrder start ts ∧ InOrder (start + completedCount ts) ts' := by
  induction ts generalizing start with
  | nil => simp [InOrder, completedCount]
  | cons t rest ih =>
    have hnext : (if t.completed then start + 1 else start) + completedCount rest =
        start + completedCount (t :: rest) := by
      rw [completedCount_cons]
      split <;> omega
    rw [List.cons_append, InOrder, InOrder, ih, hnext, and_assoc]

theorem head (h : InOrder start ts) {t : Attempt} (ht : ts.head? = some t) :
    t.record.offset = start := by
  cases ts with
  | nil => cases ht
  | cons t' rest =>
    obtain rfl : t' = t := Option.some.inj ht
    exact h.1

/-- The completed offsets are consecutive, and each of them is completed once. -/
theorem offsets (h : InOrder start ts) :
    (ts.filter (·.completed)).map (·.record.offset) = List.range' start (completedCount ts) := by
  induction ts generalizing start with
  | nil => rfl
  | cons t rest ih =>
    obtain ⟨ht, hrest⟩ := h
    rw [completedCount_cons]
    by_cases hc : t.completed = true
    · rw [if_pos hc] at hrest ⊢
      rw [List.filter_cons_of_pos hc, List.map_cons, ht, ih hrest, List.range'_succ]
    · rw [if_neg hc] at hrest ⊢
      rw [List.filter_cons_of_neg hc, ih hrest, Nat.add_zero]

/-- Every completed offset lies below the first one that is left. -/
theorem exists_of_lt (h : InOrder start ts) {o : Nat} (hlo : start ≤ o)
    (hhi : o < start + completedCount ts) : ∃ t ∈ ts, t.completed ∧ t.record.offset = o := by
  have hmem : o ∈ (ts.filter (·.completed)).map (·.record.offset) := by
    rw [h.offsets]
    exact List.mem_range'_1.mpr ⟨hlo, hhi⟩
  obtain ⟨t, ht, rfl⟩ := List.mem_map.mp hmem
  obtain ⟨hin, hc⟩ := List.mem_filter.mp ht
  exact ⟨t, hin, hc, rfl⟩

/-- Consecutive records that are all completed. -/
theorem of_range' {a : String} {rs : List Record} {n : Nat}
    (h : offsetsAt a rs = List.range' start n) :
    InOrder start (attemptsAt a (rs.map fun r => ⟨r, true⟩)) ∧
      completedCount (attemptsAt a (rs.map fun r => ⟨r, true⟩)) = n := by
  induction rs generalizing start n with
  | nil =>
    obtain rfl : n = 0 := by simpa using h.symm
    exact ⟨trivial, rfl⟩
  | cons r rest ih =>
    rw [offsetsAt_cons] at h
    by_cases ha : r.address = a
    · rw [if_pos ha] at h
      cases n with
      | zero => cases h
      | succ n =>
        obtain ⟨rfl, hrest⟩ := List.cons.inj h
        obtain ⟨hin, hcount⟩ := ih hrest
        simp [attemptsAt, ha, InOrder, completedCount_cons] at hin hcount ⊢
        exact ⟨hin, hcount⟩
    · rw [if_neg ha] at h
      simpa [attemptsAt, ha] using ih h

end InOrder

theorem min?_range' (start n : Nat) :
    (List.range' start n).min? = (List.range' start n).head? := by
  cases n with
  | zero => rfl
  | succ n =>
    rw [List.range'_succ, List.head?_cons, ← List.range'_succ]
    exact List.min?_eq_some_iff.mpr ⟨by simp [List.range'_succ],
      fun b hb => (List.mem_range'_1.mp hb).1⟩

/-- Positions have moved over some attempts: those at an address go through its
offsets in order, and the position is at the first that is not completed. -/
structure Progress (before : Table String Nat) (ts : List Attempt) (after : Table String Nat) :
    Prop where
  untracked : ∀ a, before.get? a = none → attemptsAt a ts = [] ∧ after.get? a = none
  tracked : ∀ a p, before.get? a = some p →
    InOrder p (attemptsAt a ts) ∧ after.get? a = some (p + completedCount (attemptsAt a ts))

namespace Progress

variable {s t u : Table String Nat} {rs : List Record}

theorem refl (t : Table String Nat) : Progress t [] t :=
  ⟨fun _ h => ⟨rfl, h⟩, fun _ _ h => ⟨trivial, h⟩⟩

theorem attemptsAt_eq_nil {a : String} (h : offsetsAt a rs = []) (completed : Bool) :
    attemptsAt a (rs.map fun r => ⟨r, completed⟩) = [] := by
  rw [offsetsAt_eq_nil] at h
  simpa [attemptsAt] using h

/-- Every record that was taken is completed. -/
theorem of_all (h : Advance s rs t) : Progress s (rs.map fun r => ⟨r, true⟩) t where
  untracked a ha := by
    obtain ⟨hr, ht⟩ := h.untracked a ha
    exact ⟨attemptsAt_eq_nil hr true, ht⟩
  tracked a p ha := by
    obtain ⟨n, hr, ht⟩ := h.tracked a p ha
    obtain ⟨hin, hcount⟩ := InOrder.of_range' hr
    exact ⟨hin, by rw [hcount]; exact ht⟩

/-- One record is not completed, and every address has gone back to the first of
those pending there. -/
theorem of_rewind {done rest : List Record} {r : Record}
    (h : Advance s (done ++ r :: rest) t)
    (hu : ∀ a, u.get? a = (offsetsAt a (r :: rest)).min?.or (t.get? a)) :
    Progress s ((done.map fun r => ⟨r, true⟩) ++ [⟨r, false⟩]) u where
  untracked a ha := by
    obtain ⟨hr, ht⟩ := h.untracked a ha
    rw [offsetsAt_append, List.append_eq_nil_iff] at hr
    have hne : r.address ≠ a := offsetsAt_eq_nil.mp hr.2 r (List.mem_cons_self ..)
    refine ⟨?_, ?_⟩
    · rw [attemptsAt_append, attemptsAt_eq_nil hr.1]
      simp [attemptsAt, hne]
    · rw [hu, hr.2, ht]; rfl
  tracked a p ha := by
    obtain ⟨n, hr, ht⟩ := h.tracked a p ha
    rw [offsetsAt_append] at hr
    -- the first `k` records of the address were completed, the others are pending
    obtain ⟨k, hk, hdone, hpending⟩ := List.range'_eq_append_iff.mp hr.symm
    rw [Nat.mul_one] at hpending
    obtain ⟨hin, hcount⟩ := InOrder.of_range' hdone
    -- the failing record may be at this address or at another
    have hfailed : InOrder (p + k) (attemptsAt a [⟨r, false⟩]) ∧
        completedCount (attemptsAt a [⟨r, false⟩]) = 0 := by
      by_cases hra : r.address = a
      · have hoffset : r.offset = p + k := by
          rw [offsetsAt_cons, if_pos hra] at hpending
          cases hlen : n - k with
          | zero => rw [hlen] at hpending; cases hpending
          | succ m =>
            rw [hlen, List.range'_succ] at hpending
            exact (List.cons.inj hpending).1
        simp [attemptsAt, hra, InOrder, hoffset, completedCount]
      · simp [attemptsAt, hra, InOrder, completedCount]
    rw [attemptsAt_append, completedCount_append, InOrder.append, hcount]
    refine ⟨⟨hin, hfailed.1⟩, ?_⟩
    rw [hu, hpending, ht, hfailed.2]
    rw [min?_range']
    cases hlen : n - k with
    | zero =>
      have : n = k := by omega
      simp [this]
    | succ m => rfl

end Progress

/-- The first pending record of an address has the least offset. -/
theorem Advance.min?_eq_head? {s t : Table String Nat} {done pending : List Record}
    (h : Advance s (done ++ pending) t) (a : String) :
    (offsetsAt a pending).min? = (offsetsAt a pending).head? := by
  cases ha : s.get? a with
  | none =>
    obtain ⟨hr, -⟩ := h.untracked a ha
    rw [offsetsAt_append, List.append_eq_nil_iff] at hr
    rw [hr.2]; rfl
  | some p =>
    obtain ⟨n, hr, -⟩ := h.tracked a p ha
    rw [offsetsAt_append] at hr
    obtain ⟨k, -, -, hpending⟩ := List.range'_eq_append_iff.mp hr.symm
    rw [hpending]
    exact min?_range' ..

/-! ## Taking records -/

/-- The records that a call has returned. -/
def taken {ε : Type} : Except ε (List Record) → List Record
  | .ok records => records
  | .error _ => []

namespace Session

variable {σ : Type} {x y z : Session σ} {now : Timestamp} {waited : Bool}
  {outcome : Except BusError (List Record)}

/-- A session has taken some records: its positions have moved over them, they are
in logs that the client reads, and nothing else of the client, of the logs or of the
commits has changed. -/
structure Took (x : Session σ) (records : List Record) (y : Session σ) : Prop where
  client : ∃ positions, y.client =
    { x.client with connection := { x.client.connection with positions } }
  advance : Advance x.client.connection.positions records y.client.connection.positions
  known : ∀ r ∈ records, (x.client.routes.get? r.address).isSome ∧ y.broker.Holds r
  logs : y.broker.logs = x.broker.logs
  committed : y.broker.committed = x.broker.committed

/-- Every address of a client has a position. -/
def Tracked (x : Session σ) : Prop :=
  ∀ a, (x.client.routes.get? a).isSome → (x.client.connection.positions.get? a).isSome

namespace Took

variable {rs rs' : List Record}

theorem refl (x : Session σ) : x.Took [] x :=
  ⟨⟨_, rfl⟩, .refl _, fun _ h => (by cases h), rfl, rfl⟩

theorem grows (h : x.Took rs y) : x.broker.Grows y.broker :=
  .of_logs h.logs h.committed

theorem trans (h : x.Took rs y) (h' : y.Took rs' z) : x.Took (rs ++ rs') z where
  client := by
    obtain ⟨s, hs⟩ := h.client
    obtain ⟨t, ht⟩ := h'.client
    exact ⟨t, by rw [ht, hs]⟩
  advance := h.advance.trans h'.advance
  known r hr := by
    obtain ⟨s, hs⟩ := h.client
    rcases List.mem_append.mp hr with hr | hr
    · obtain ⟨hroute, hholds⟩ := h.known r hr
      exact ⟨hroute, h'.grows.holds hholds⟩
    · obtain ⟨hroute, hholds⟩ := h'.known r hr
      rw [hs] at hroute
      exact ⟨hroute, hholds⟩
  logs := h'.logs.trans h.logs
  committed := h'.committed.trans h.committed

theorem routes (h : x.Took rs y) : y.client.routes = x.client.routes := by
  obtain ⟨s, hs⟩ := h.client
  rw [hs]

theorem tracked (h : x.Took rs y) (ht : x.Tracked) : y.Tracked := fun a ha =>
  h.advance.isSome (ht a (h.routes ▸ ha))

/-- Putting records in another order that keeps those of every address. -/
theorem congr (h : x.Took rs y) (hperm : ∀ r ∈ rs', r ∈ rs)
    (hr : ∀ a, offsetsAt a rs' = offsetsAt a rs) : x.Took rs' y where
  client := h.client
  advance := h.advance.congr hr
  known r hm := h.known r (hperm r hm)
  logs := h.logs
  committed := h.committed

end Took

theorem mem_addresses {c : Client σ} {p : Lane → Bool} {a : String} (h : a ∈ c.addresses p) :
    (c.routes.get? a).isSome := by
  obtain ⟨index, lane, hroute, -⟩ := Client.mem_addresses_iff.mp h
  rw [hroute]
  rfl

theorem fetch_took {p : Lane → Bool} (ht : x.Tracked)
    (h : x.fetch now (x.client.addresses p) = (outcome, z)) : x.Took (taken outcome) z := by
  unfold fetch at h
  split at h
  · rename_i e connection broker hfetch
    obtain ⟨rfl, rfl⟩ := Connection.fetch_error hfetch fun a ha => ht a (mem_addresses ha)
    obtain ⟨rfl, rfl⟩ := Prod.mk.inj h
    exact .refl x
  · rename_i records connection broker hfetch
    obtain ⟨positions, rfl, hadv, hknown, hlogs, hcommitted⟩ := Connection.fetch_ok hfetch
    obtain ⟨rfl, rfl⟩ := Prod.mk.inj h
    have hgrows : x.broker.Grows broker := .of_logs hlogs hcommitted
    exact ⟨⟨positions, rfl⟩, hadv,
      fun r hr => ⟨mem_addresses (hknown r hr).1, hgrows.holds (hknown r hr).2⟩, hlogs, hcommitted⟩

/-- Sorting by urgency keeps the records of every address in order. -/
theorem offsetsAt_sorted (c : Client σ) (a : String) (rs : List Record) :
    offsetsAt a (rs.filter c.isPriority ++ rs.filter fun r => !c.isPriority r) =
      offsetsAt a rs := by
  induction rs with
  | nil => rfl
  | cons r rest ih =>
    rw [offsetsAt_append] at ih ⊢
    by_cases ha : r.address = a
    · subst ha
      -- all records of this address are of one urgency
      have hsame (r' : Record) (h : r'.address = r.address) : c.isPriority r' = c.isPriority r := by
        rw [Client.isPriority, Client.isPriority, h]
      cases hp : c.isPriority r with
      | true =>
        simp only [List.filter_cons, hp, if_true, Bool.not_true, Bool.false_eq_true, if_false,
          offsetsAt_cons, List.cons_append, ih]
      | false =>
        have hnone : offsetsAt r.address (rest.filter c.isPriority) = [] :=
          offsetsAt_eq_nil.mpr fun r' hr' h => by
            have := (List.mem_filter.mp hr').2
            rw [hsame r' h, hp] at this
            cases this
        rw [hnone] at ih
        simp only [List.filter_cons, hp, Bool.false_eq_true, if_false, Bool.not_false, if_true,
          offsetsAt_cons, hnone, List.nil_append]
        rw [← ih]; rfl
    · rw [offsetsAt_cons, if_neg ha, ← ih]
      cases hp : c.isPriority r <;> simp [hp, offsetsAt_cons, ha]

theorem takeAny_took (ht : x.Tracked) (h : x.takeAny now = (outcome, z)) :
    x.Took (taken outcome) z := by
  unfold takeAny at h
  split at h
  · rename_i records y hfetch
    obtain ⟨rfl, rfl⟩ := Prod.mk.inj h
    have htook : x.Took records y := fetch_took ht hfetch
    exact htook.congr (fun r hr => by simp [taken] at hr; exact hr.elim (·.1) (·.1))
      fun a => offsetsAt_sorted y.client a records
  · rename_i failed hfailed
    exact fetch_took ht h

/-- The records of the priority lanes that are ready. -/
def takeUrgent (x : Session σ) (now : Timestamp) : Except BusError (List Record) × Session σ :=
  if (x.client.addresses (· == .priority)).isEmpty then (.ok [], x)
  else x.fetch now (x.client.addresses (· == .priority))

theorem take_eq (x : Session σ) (now : Timestamp) : x.take now =
    match x.takeUrgent now with
    | (.ok [], y) => y.takeAny now
    | taken => taken := rfl

theorem takeUrgent_took (ht : x.Tracked) (h : x.takeUrgent now = (outcome, z)) :
    x.Took (taken outcome) z := by
  unfold takeUrgent at h
  split at h
  · obtain ⟨rfl, rfl⟩ := Prod.mk.inj h
    exact .refl x
  · exact fetch_took ht h

theorem take_took (ht : x.Tracked) (h : x.take now = (outcome, z)) : x.Took (taken outcome) z := by
  rw [take_eq] at h
  split at h
  · rename_i y hnone
    have hy : x.Took [] y := takeUrgent_took ht hnone
    exact hy.trans (takeAny_took (hy.tracked ht) h)
  · exact takeUrgent_took ht h

/-- Listening makes every address known, or fails before anything has changed. -/
theorem listen_cases (x : Session σ) :
    (x.client.stopped = false ∧
      x.listen = (.ok (), { x with client := x.client.synced x.broker })) ∨
    ∃ e, x.listen = (.error e, x) := by
  unfold listen
  cases hrun : x.client.stopped with
  | true => exact .inr ⟨_, rfl⟩
  | false =>
    rw [if_neg Bool.false_ne_true]
    unfold sync
    split
    · rename_i hnil
      have hnil : x.client.unsynced = [] := by simpa using hnil
      refine .inl ⟨rfl, ?_⟩
      rw [Client.synced, hnil, Connection.track, ← hnil]
    · cases hsub : x.client.connection.subscribe x.broker x.client.unsynced with
      | error e => exact .inr ⟨_, rfl⟩
      | ok connection =>
        unfold Connection.subscribe at hsub
        split at hsub
        · cases hsub
        · cases hsub
          exact .inl ⟨rfl, rfl⟩

/-- A client that has listened takes records from the positions that the connection
has now that it knows every address. -/
theorem gather_of_listen (hw : x.client.Wired) (hrun : x.client.stopped = false)
    (hlisten : x.listen = (.ok (), { x with client := x.client.synced x.broker }))
    (h : x.gather now waited = (outcome, z)) :
    ({ x with client := x.client.synced x.broker } : Session σ).Took (taken outcome) z := by
  have ht : ({ x with client := x.client.synced x.broker } : Session σ).Tracked := fun a ha =>
    Client.synced_tracked hw hrun x.broker ha
  unfold gather at h
  rw [hlisten] at h
  dsimp only at h
  split at h
  · obtain ⟨rfl, rfl⟩ := Prod.mk.inj h
    exact .refl _
  · split at h
    · exact takeAny_took ht h
    · exact take_took ht h

/-- **Gathering** fails before anything has changed, or takes records from the
positions that the connection has once it knows every address. -/
theorem gather_cases (hw : x.client.Wired) (h : x.gather now waited = (outcome, z)) :
    (taken outcome = [] ∧ z = x) ∨
    (x.client.stopped = false ∧
      ({ x with client := x.client.synced x.broker } : Session σ).Took (taken outcome) z) := by
  rcases x.listen_cases with ⟨hrun, hok⟩ | ⟨e, herr⟩
  · exact .inr ⟨hrun, gather_of_listen hw hrun hok h⟩
  · unfold gather at h
    rw [herr] at h
    obtain ⟨rfl, rfl⟩ := Prod.mk.inj h
    exact .inl ⟨rfl, rfl⟩

/-! ## Dispatching what was taken -/

/-- A session has made some attempts at records in its logs, and every position
has moved over those that were completed. -/
structure Passed (x : Session σ) (ts : List Attempt) (y : Session σ) : Prop where
  client : ∃ positions, y.client =
    { x.client with connection := { x.client.connection with positions } }
  progress : Progress x.client.connection.positions ts y.client.connection.positions
  holds : ∀ t ∈ ts, y.broker.Holds t.record
  grows : x.broker.Grows y.broker

theorem Passed.refl (x : Session σ) : x.Passed [] x :=
  ⟨⟨_, rfl⟩, .refl _, fun _ h => (by cases h), .refl _⟩

/-- **What becomes of the records that were taken.**  Either all are completed and
the positions stay behind them, or there is a first one that is not, and every
address goes back to the first of its records from there on. -/
theorem Took.dispatched {records : List Record} (h : x.Took records y) (hw : x.client.Wired)
    (hrun : x.client.stopped = false) (ht : x.Tracked) (now : Timestamp) :
    (∃ z, y.dispatchAll now records = (.ok (), z) ∧
      y.attempts now records = (records.map fun r => ⟨r, true⟩) ∧
      z.client = y.client ∧ x.Passed (y.attempts now records) z) ∨
    (∃ e z done r rest, y.dispatchAll now records = (.error e, z) ∧
      records = done ++ r :: rest ∧
      y.attempts now records = (done.map fun r => ⟨r, true⟩) ++ [⟨r, false⟩] ∧
      (∀ a, z.client.connection.positions.get? a =
        (offsetsAt a (r :: rest)).head?.or (y.client.connection.positions.get? a)) ∧
      x.Passed (y.attempts now records) z) := by
  obtain ⟨moved, hclient⟩ := h.client
  have hreceiver (r : Record) (hr : r ∈ records) : (y.client.receiver? r.address).isSome := by
    rw [hclient]
    exact hw.receiver (h.known r hr).1
  rcases dispatchAll_cases hreceiver now with
    ⟨z, hz, hsteady, hall⟩ | ⟨e, done, r, rest, z, rfl, hz, hsteady, hall⟩
  · -- nothing moves after the records were taken, so the positions stay behind them all
    refine .inl ⟨z, hz, hall, hsteady.client, ?_⟩
    rw [hall]
    refine ⟨⟨moved, by rw [hsteady.client, hclient]⟩, ?_, fun t hm => ?_,
      h.grows.trans hsteady.grows⟩
    · rw [hsteady.client]
      exact .of_all h.advance
    · obtain ⟨r, hr, rfl⟩ := List.mem_map.mp hm
      exact hsteady.grows.holds (h.known r hr).2
  · -- going back succeeds, since every pending record has a position to seek from
    have htracked (r' : Record) (hr' : r' ∈ r :: rest) :
        (z.client.connection.positions.get? r'.address).isSome := by
      rw [hsteady.client]
      exact h.advance.isSome (ht _ (h.known r' (List.mem_append_right done hr')).1)
    have hopen : z.client.connection.closed = false := by
      rw [hsteady.client, hclient]; exact hw.opened hrun
    have hup : z.client.connection.outage.seek = false := by
      rw [hsteady.client, hclient]; exact hw.seekable
    obtain ⟨positions, hrewind, hpos⟩ := exists_rewind hopen hup htracked
    rw [hsteady.client] at hpos
    refine .inr ⟨e, _, done, r, rest, hz, rfl, hall, fun a => ?_, ?_⟩
    · -- the least pending offset of an address is its first one
      rw [hrewind, ← h.advance.min?_eq_head?]
      exact hpos a
    · rw [hall, hrewind]
      refine ⟨⟨positions, by rw [withConnection, hsteady.client, hclient]⟩,
        .of_rewind h.advance hpos, fun t hm => ?_, h.grows.trans hsteady.grows⟩
      have hmem : t.record ∈ done ++ r :: rest := by
        rcases List.mem_append.mp hm with hm | hm
        · obtain ⟨r', hr', rfl⟩ := List.mem_map.mp hm
          exact List.mem_append_left _ hr'
        · rw [List.mem_singleton.mp hm]
          exact List.mem_append_right done (List.mem_cons_self ..)
      exact hsteady.grows.holds (h.known _ hmem).2

/-- The attempts of a pass. -/
def passAttempts (x : Session σ) (now : Timestamp) (waited : Bool) : List Attempt :=
  match x.gather now waited with
  | (.error _, _) => []
  | (.ok records, y) => y.attempts now records

/-- A client that has listened makes its attempts from the positions that the
connection has now that it knows every address. -/
theorem pass_of_listen (hw : x.client.Wired) (hrun : x.client.stopped = false)
    (hlisten : x.listen = (.ok (), { x with client := x.client.synced x.broker }))
    (now : Timestamp) (waited : Bool) :
    ({ x with client := x.client.synced x.broker } : Session σ).Passed
      (x.passAttempts now waited) (x.pass now waited).2 := by
  have hws := Client.synced_wired hw x.broker
  have ht : ({ x with client := x.client.synced x.broker } : Session σ).Tracked := fun a ha =>
    Client.synced_tracked hw hrun x.broker ha
  unfold passAttempts pass
  cases hgather : x.gather now waited with
  | mk outcome y =>
    have htook := gather_of_listen hw hrun hlisten hgather
    cases outcome with
    | error e =>
      exact ⟨htook.client, .of_all htook.advance, fun t ht => (by cases ht), htook.grows⟩
    | ok records =>
      change Took _ records y at htook
      rcases htook.dispatched hws hrun ht now with
        ⟨z, hz, -, -, hpassed⟩ | ⟨e, z, -, -, -, hz, -, -, -, hpassed⟩
      · simp only [hz]; exact hpassed
      · simp only [hz]; exact hpassed

/-- A client that cannot listen makes no attempts. -/
theorem pass_of_not_listen {e : BusError} (hlisten : x.listen = (.error e, x)) (now : Timestamp)
    (waited : Bool) : x.passAttempts now waited = [] ∧ x.pass now waited = (.error e, x) := by
  have hgather : x.gather now waited = (.error e, x) := by
    unfold gather
    rw [hlisten]
  exact ⟨by rw [passAttempts, hgather], by rw [pass, hgather]⟩

/-- **A pass** changes nothing, or makes its attempts from the positions that the
connection has once it knows every address. -/
theorem pass_cases (hw : x.client.Wired) (now : Timestamp) (waited : Bool) :
    (x.passAttempts now waited = [] ∧ (x.pass now waited).2 = x) ∨
    (x.client.stopped = false ∧
      ({ x with client := x.client.synced x.broker } : Session σ).Passed
        (x.passAttempts now waited) (x.pass now waited).2) := by
  rcases x.listen_cases with ⟨hrun, hok⟩ | ⟨e, herr⟩
  · exact .inr ⟨hrun, pass_of_listen hw hrun hok now waited⟩
  · obtain ⟨hnil, hpass⟩ := pass_of_not_listen herr now waited
    exact .inl ⟨hnil, by rw [hpass]⟩

end Session
end LaneBus
