import LaneBus.Proofs.Histories
import LaneBus.Proofs.Ownership
import LaneBus.Proofs.Rewiring

/-! # Routes and registrations

A client keeps its subscriptions in a list, its routes in a table, and the addresses that
its connection has yet to be told in another list.  A registration changes all three, and
differently when its topic already has a callback of the same kind.

A ledger notes from outside what a client has registered and what its connection was told,
and the three collections accord with it (`Client.Accords`): after a registration
(`Client.Accords.register`), after any operation (`Client.Accords.perform`), and after any
run of a bus (`Bus.run_accords`).  So a client reads every address for the owner that the
registrations alone leave it to (`Client.Accords.receiver?`).
-/
namespace LaneBus

variable {σ : Type}

/-! ## The ledger of a client -/

/-- What a client has registered, and what its connection was told to read, the oldest
first. -/
structure Ledger (σ : Type) where
  registered : List (Subscription σ) := []
  told : List String := []

namespace Operation

/-- What an operation registers.  A client that has stopped refuses registrations. -/
def registers (x : Session σ) (op : Operation σ) : List (Subscription σ) :=
  if x.client.stopped then []
  else
    match op.registration? with
    | none => []
    | some (topic, kind, handler) => [{ topic, kind, handler }]

/-- The addresses that an operation tells the connection to read. -/
def tells (x : Session σ) : Operation σ → List String
  | poll | listen | resume =>
    match x.listen with
    | (.ok (), _) => x.client.unsynced
    | (.error _, _) => []
  | _ => []

end Operation

/-- The ledger after an operation. -/
def Ledger.after (l : Ledger σ) (x : Session σ) (op : Operation σ) : Ledger σ where
  registered := l.registered ++ op.registers x
  told := l.told ++ op.tells x

namespace Client

variable {c : Client σ} {l : Ledger σ}

/-- **How the collections of a client accord with its ledger.** -/
structure Accords (c : Client σ) (l : Ledger σ) : Prop where
  /-- No two subscriptions have the same key. -/
  apart : (c.subscriptions.map Subscription.key).Nodup
  /-- The subscriptions are the latest registrations. -/
  latest : ∀ s, s ∈ c.subscriptions ↔ Latest l.registered s
  /-- The routes lead from the addresses of the subscriptions to their owners. -/
  routed : ∀ a index lane, c.routes.get? a = some (index, lane) ↔
    ∃ s, c.subscriptions[index]? = some s ∧ s.Owns lane a
  /-- A routed address was told to the connection or waits to be told. -/
  known : ∀ a, (c.routes.get? a).isSome ↔ a ∈ l.told ++ c.unsynced
  /-- No address is told twice. -/
  once : (l.told ++ c.unsynced).Nodup
  /-- While the client runs, its connection reads what it was told to. -/
  tracked : c.stopped = false → ∀ a, (c.connection.positions.get? a).isSome ↔ a ∈ l.told

/-- A client reads for the owners of its addresses. -/
theorem Accords.receiver? (h : c.Accords l) (a : String) :
    c.receiver? a = owner? l.registered a := by
  refine Option.ext fun ⟨s, lane⟩ => ?_
  rw [owner?_eq_some_iff, ← h.latest, Client.receiver?]
  constructor
  · intro hreceiver
    split at hreceiver
    · cases hreceiver
    · rename_i index lane' hroute
      obtain ⟨s', hs', heq⟩ := Option.map_eq_some_iff.mp hreceiver
      obtain ⟨rfl, rfl⟩ := Prod.mk.inj heq
      obtain ⟨owner, howner, howns⟩ := (h.routed a index lane').mp hroute
      obtain rfl : s' = owner := Option.some.inj (hs'.symm.trans howner)
      exact ⟨List.mem_of_getElem? hs', howns⟩
  · rintro ⟨hmem, howns⟩
    obtain ⟨index, hindex⟩ := List.mem_iff_getElem?.mp hmem
    rw [(h.routed a index lane).mpr ⟨s, hindex, howns⟩]
    simp [hindex]

/-- There is one subscription for every key that was registered, and none for any other. -/
theorem Accords.count_key (h : c.Accords l) (key : String × SubscriptionKind) :
    (c.subscriptions.map Subscription.key).count key =
      if key ∈ l.registered.map Subscription.key then 1 else 0 := by
  have hmem : key ∈ c.subscriptions.map Subscription.key ↔
      key ∈ l.registered.map Subscription.key := by
    refine List.mem_map.trans (Iff.trans ?_ exists_latest.symm)
    exact exists_congr fun s => and_congr_left' (h.latest s)
  rw [h.apart.count]
  exact if_congr hmem rfl rfl

theorem accords_new (hs : c.subscriptions = []) (hr : c.routes = .empty) (hu : c.unsynced = [])
    (hp : c.connection.positions = .empty) : c.Accords {} := by
  refine ⟨by simp [hs], fun s => ?_, fun a index lane => ?_, ?_, by simp [hu], ?_⟩
  · rw [hs]
    refine ⟨fun h => (by cases h), ?_⟩
    rintro ⟨older, newer, hnil, -⟩
    exact absurd hnil.symm (by simp)
  · simp [hs, hr]
  · simp [hr, hu]
  · simp [hp]

/-! ## Registering -/

theorem route_stopped (topic : String) (index : Nat) (c : Client σ) (lanes : List Lane) :
    (route topic index c lanes).stopped = c.stopped := by
  induction lanes generalizing c with
  | nil => rfl
  | cons lane rest ih => exact ih _

/-- Routing leaves those addresses to be told that had no route before. -/
theorem unsynced_route (topic : String) (index : Nat) (c : Client σ) {lanes : List Lane}
    (hlanes : lanes.Nodup) : (route topic index c lanes).unsynced =
      c.unsynced ++ (lanes.map (Lane.address · topic)).filter
        fun a => (c.routes.get? a).isNone := by
  induction lanes generalizing c with
  | nil => simp [route]
  | cons lane rest ih =>
    obtain ⟨hfresh, hrest⟩ := List.nodup_cons.mp hlanes
    -- the addresses of the other lanes are not touched by the first route
    have hothers : (rest.map (Lane.address · topic)).filter (fun a =>
          ((c.routes.insert (lane.address topic) (index, lane)).get? a).isNone) =
        (rest.map (Lane.address · topic)).filter fun a => (c.routes.get? a).isNone := by
      refine List.filter_congr fun a ha => ?_
      obtain ⟨lane', hlane', rfl⟩ := List.mem_map.mp ha
      rw [Table.get?_insert, if_neg]
      rintro hsame
      exact hfresh ((Lane.address_inj.mp hsame).1 ▸ hlane')
    rw [route, ih _ hrest, hothers, List.map_cons]
    cases hroute : c.routes.get? (lane.address topic) <;> simp [hroute]

/-- **A registration puts its subscription in the place of the one with its key**, or in a new
place, and routes the addresses of its lanes there. -/
theorem register_eq_route (c : Client σ) (new : Subscription σ) :
    ∃ index subscriptions, c.register new.topic new.kind new.handler =
        route new.topic index { c with subscriptions } new.kind.lanes ∧
      subscriptions[index]? = some new ∧
      (∀ i ≠ index, subscriptions[i]? = c.subscriptions[i]?) ∧
      (∀ s, c.subscriptions[index]? = some s → s.key = new.key) ∧
      ((c.subscriptions.map Subscription.key).Nodup →
        (subscriptions.map Subscription.key).Nodup) := by
  have hsame (s : Subscription σ) :
      (s.topic == new.topic && s.kind == new.kind) = true ↔ s.key = new.key := by
    simp [Subscription.key]
  unfold register
  dsimp only
  split
  · rename_i index hfound
    obtain ⟨hlt, hkey, -⟩ := List.findIdx?_eq_some_iff_getElem.mp hfound
    rw [hsame] at hkey
    obtain ⟨htopic, hkind⟩ := Prod.mk.inj hkey
    refine ⟨index, _, rfl, ?_, fun i hi => ?_, fun s hs => ?_, fun hnodup => ?_⟩
    · simp [hlt, htopic, hkind]
    · simp [hi.symm]
    · rw [List.getElem?_eq_getElem hlt] at hs
      rw [← Option.some.inj hs]
      exact hkey
    · have hkeys : (c.subscriptions.modify index fun s => { s with handler := new.handler }).map
          Subscription.key = c.subscriptions.map Subscription.key := by
        refine List.ext_getElem? fun i => ?_
        rw [List.getElem?_map, List.getElem?_map, List.getElem?_modify]
        cases c.subscriptions[i]? with
        | none => rfl
        | some s => simp only [Option.map_some]; split <;> rfl
      rw [hkeys]
      exact hnodup
  · rename_i hnone
    have hfresh (s : Subscription σ) (hs : s ∈ c.subscriptions) : s.key ≠ new.key := fun hkey => by
      have hno := List.findIdx?_eq_none_iff.mp hnone s hs
      rw [(hsame s).mpr hkey] at hno
      cases hno
    refine ⟨c.subscriptions.length, _, rfl, by simp, fun i hi => ?_, fun s hs => ?_,
      fun hnodup => ?_⟩
    · rcases Nat.lt_or_gt_of_ne hi with hlt | hgt
      · rw [List.getElem?_append_left hlt]
      · rw [List.getElem?_eq_none (by simp; omega), List.getElem?_eq_none (by omega)]
    · simp at hs
    · rw [List.map_append, List.nodup_append]
      refine ⟨hnodup, by simp, fun key hkey key' hkey' => ?_⟩
      obtain ⟨s, hs, rfl⟩ := List.mem_map.mp hkey
      rw [List.mem_singleton.mp hkey']
      exact hfresh s hs

/-- Subscriptions with different keys are found by their keys. -/
theorem index_eq_of_key {subscriptions : List (Subscription σ)}
    (hnodup : (subscriptions.map Subscription.key).Nodup) {i j : Nat} {s s' : Subscription σ}
    (hs : subscriptions[i]? = some s) (hs' : subscriptions[j]? = some s') (h : s.key = s'.key) :
    i = j := by
  obtain ⟨hlt, -⟩ := List.getElem?_eq_some_iff.mp hs
  refine (List.getElem?_inj (by simpa using hlt) hnodup).mp ?_
  rw [List.getElem?_map, List.getElem?_map, hs, hs', Option.map_some, Option.map_some, h]

/-- **Registering keeps a client in accord with its ledger.** -/
theorem Accords.register (h : c.Accords l) (new : Subscription σ) :
    (c.register new.topic new.kind new.handler).Accords
      { l with registered := l.registered ++ [new] } := by
  obtain ⟨index, subscriptions, hregister, hnew, hothers, hold, hapart⟩ :=
    c.register_eq_route new
  have hnodup := hapart h.apart
  have hconnection := c.register_connection new.topic new.kind new.handler
  rw [hregister] at hconnection ⊢
  have hroutes (a : String) : (route new.topic index { c with subscriptions }
      new.kind.lanes).routes.get? a =
        ((new.lane? a).map (index, ·)).or (c.routes.get? a) := by
    rw [get?_route, Subscription.lane?]
    split
    · rename_i lane hlane
      rw [hlane]
      rfl
    · rename_i hnone
      rw [hnone]
      rfl
  -- the subscriptions elsewhere are those that have another key
  have hother (s : Subscription σ) (i : Nat) (hne : s.key ≠ new.key) :
      subscriptions[i]? = some s ↔ c.subscriptions[i]? = some s := by
    by_cases hi : i = index
    · subst hi
      exact ⟨fun hs => absurd (by rw [Option.some.inj (hnew.symm.trans hs)]) hne,
        fun hs => absurd (hold s hs) hne⟩
    · rw [hothers i hi]
  -- the addresses that have to be told are those of the new subscription without a route
  have hwaits (a : String) : a ∈ ((new.kind.lanes.map (Lane.address · new.topic)).filter
      fun a => (c.routes.get? a).isNone) ↔ (new.lane? a).isSome ∧ c.routes.get? a = none := by
    rw [List.mem_filter, Option.isNone_iff_eq_none, Option.isSome_iff_exists]
    simp only [Subscription.lane?_eq_some_iff, Subscription.Owns, List.mem_map]
  refine ⟨?_, fun s => ?_, fun a i lane => ?_, fun a => ?_, ?_, fun hrun a => ?_⟩
  · rw [subscriptions_route]
    exact hnodup
  · rw [subscriptions_route, latest_concat, ← h.latest]
    by_cases hkey : s.key = new.key
    · rw [or_iff_left fun hne => hne.1 hkey.symm]
      constructor
      · intro hmem
        obtain ⟨i, hi⟩ := List.mem_iff_getElem?.mp hmem
        rw [index_eq_of_key hnodup hi hnew hkey, hnew] at hi
        exact (Option.some.inj hi).symm
      · rintro rfl
        exact List.mem_of_getElem? hnew
    · rw [or_iff_right (fun heq => hkey (by rw [heq])), and_iff_right (Ne.symm hkey),
        List.mem_iff_getElem?, List.mem_iff_getElem?]
      exact exists_congr fun i => hother s i hkey
  · rw [hroutes, subscriptions_route]
    cases hlane : new.lane? a with
    | some found =>
      have howns := Subscription.lane?_eq_some_iff.mp hlane
      constructor
      · intro heq
        obtain ⟨rfl, rfl⟩ := Prod.mk.inj (Option.some.inj heq)
        exact ⟨new, hnew, howns⟩
      · rintro ⟨s, hs, hs'⟩
        obtain ⟨hkey, rfl⟩ := howns.same hs'
        rw [index_eq_of_key hnodup hnew hs hkey]
        rfl
    | none =>
      have hnone := Subscription.lane?_eq_none_iff.mp hlane
      refine (h.routed a i lane).trans (exists_congr fun s => and_congr_left fun howns => ?_)
      exact (hother s i fun hkey => hnone lane (howns.of_key hkey)).symm
  · rw [hroutes, unsynced_route _ _ _ new.kind.nodup_lanes, ← List.append_assoc,
      List.mem_append, ← h.known, hwaits]
    cases hlane : new.lane? a <;> cases hroute : c.routes.get? a <;> simp
  · rw [unsynced_route _ _ _ new.kind.nodup_lanes, ← List.append_assoc, List.nodup_append]
    refine ⟨h.once, ?_, fun a ha a' ha' => ?_⟩
    · exact List.filter_sublist.nodup (List.pairwise_map.mpr (new.kind.nodup_lanes.imp
        fun hne hsame => hne (Lane.address_inj.mp hsame).1))
    · rintro rfl
      have hrouted := (h.known a).mpr ha
      rw [((hwaits a).mp ha').2] at hrouted
      cases hrouted
  · rw [hconnection]
    exact h.tracked (by rwa [route_stopped] at hrun) a

end Client

/-! ## One operation -/

/-- Addresses neither come nor go while positions move over attempts. -/
theorem Progress.isSome_iff {s t : Table String Nat} {ts : List Attempt} (h : Progress s ts t)
    (a : String) : (t.get? a).isSome ↔ (s.get? a).isSome := by
  cases hp : s.get? a with
  | none => rw [(h.untracked a hp).2]
  | some p =>
    rw [(h.tracked a p hp).2]
    exact Iff.rfl

/-- The connection of a session that has passed has been told of all addresses. -/
theorem Session.Passed.told {x y : Session σ} {ts : List Attempt}
    (h : ({ x with client := x.client.synced x.broker } : Session σ).Passed ts y) :
    y.client.unsynced = [] ∧ ∀ a, (y.client.connection.positions.get? a).isSome ↔
      (x.client.connection.positions.get? a).isSome ∨ a ∈ x.client.unsynced := by
  obtain ⟨positions, hclient⟩ := h.client
  refine ⟨by rw [hclient]; rfl, fun a => ?_⟩
  rw [h.progress.isSome_iff, x.client.get?_synced, Option.isSome_or, Bool.or_eq_true]
  exact or_congr_right (by split <;> simp [*])

/-- **What an operation tells.**  One that registers nothing tells the connection of all the
addresses that wait to be told, or of none, and the connection of a client that runs on reads
those that it was told of. -/
theorem Operation.perform_tells {x : Session σ} (hw : x.client.Wired) (now : Timestamp)
    {op : Operation σ} (hop : op.registration? = none) :
    op.tells x ++ (op.perform now x).client.unsynced = x.client.unsynced ∧
    ((op.perform now x).client.stopped = false → ∀ a,
      ((op.perform now x).client.connection.positions.get? a).isSome ↔
        (x.client.connection.positions.get? a).isSome ∨ a ∈ op.tells x) := by
  have hsame {y : Session σ} (h : y.client = x.client) :
      [] ++ y.client.unsynced = x.client.unsynced ∧ (y.client.stopped = false → ∀ a,
        (y.client.connection.positions.get? a).isSome ↔
          (x.client.connection.positions.get? a).isSome ∨ a ∈ ([] : List String)) := by
    rw [h]
    exact ⟨rfl, fun _ a => by simp⟩
  have hpass (waited : Bool) :
      Operation.poll.tells x ++ (x.pass now waited).2.client.unsynced = x.client.unsynced ∧
      ((x.pass now waited).2.client.stopped = false → ∀ a,
        ((x.pass now waited).2.client.connection.positions.get? a).isSome ↔
          (x.client.connection.positions.get? a).isSome ∨ a ∈ Operation.poll.tells x) := by
    rcases x.listen_cases with ⟨hrun, hok⟩ | ⟨e, herr⟩
    · obtain ⟨hnil, hknown⟩ := (Session.pass_of_listen hw hrun hok now waited).told
      simp only [tells, hok]
      exact ⟨by rw [hnil, List.append_nil], fun _ => hknown⟩
    · simp only [tells, herr, (Session.pass_of_not_listen herr now waited).2]
      exact hsame rfl
  cases op with
  | subscribe topic callback => cases hop
  | subscribeWith topic callback onError => cases hop
  | subscribeErrors topic callback => cases hop
  | publish value topic lane => exact hsame (x.publish_steady now value topic lane).client
  | publishDerived input value topic lane =>
    exact hsame (x.publishDerived_steady now input value topic lane).client
  | publishError input failure topic =>
    exact hsame (x.publishError_steady now input failure topic).client
  | poll => exact hpass false
  | listen =>
    rcases x.listen_cases with ⟨-, hok⟩ | ⟨e, herr⟩
    · obtain ⟨hnil, hknown⟩ := (Session.Passed.refl _ : Session.Passed _ [] _).told
      simp only [tells, perform, hok]
      exact ⟨by rw [hnil, List.append_nil], fun _ => hknown⟩
    · simp only [tells, perform, herr]
      exact hsame rfl
  | resume => exact hpass true
  | commit => exact hsame x.commit_client
  | heartbeat => exact hsame (x.heartbeat_client now)
  | stop =>
    have hstopped : x.stop.2.client.stopped = true := by
      unfold Session.stop
      split
      · assumption
      · dsimp only
        split <;> rfl
    have hunsynced : x.stop.2.client.unsynced = x.client.unsynced := by
      unfold Session.stop
      split
      · rfl
      · dsimp only
        split <;> rfl
    refine ⟨hunsynced, fun hrun => ?_⟩
    rw [perform, hstopped] at hrun
    cases hrun

/-- What a client that runs registers is what the operation asks for, and the operation does
nothing else. -/
theorem Operation.perform_registers {x : Session σ} (hrun : x.client.stopped = false)
    (now : Timestamp) {op : Operation σ} {topic : String} {kind : SubscriptionKind}
    {handler : Handler σ} (hop : op.registration? = some (topic, kind, handler)) :
    (op.perform now x).client = x.client.register topic kind handler := by
  cases op with
  | subscribe t callback =>
    cases hop
    simp only [perform, Client.subscribe, hrun]
    rfl
  | subscribeWith t callback onError =>
    cases hop
    simp only [perform, Client.subscribeWith, hrun]
    rfl
  | subscribeErrors t callback =>
    cases hop
    simp only [perform, Client.subscribeErrors, hrun]
    rfl
  | _ => cases hop

/-- A client that has stopped registers nothing. -/
theorem Operation.perform_refuses {x : Session σ} (hstopped : x.client.stopped = true)
    (now : Timestamp) {op : Operation σ} (hop : op.registration?.isSome) :
    (op.perform now x).client = x.client := by
  cases op with
  | subscribe t callback =>
    simp only [perform, Client.subscribe, hstopped]
    rfl
  | subscribeWith t callback onError =>
    simp only [perform, Client.subscribeWith, hstopped]
    rfl
  | subscribeErrors t callback =>
    simp only [perform, Client.subscribeErrors, hstopped]
    rfl
  | _ => cases hop

/-- An operation that registers tells nothing yet. -/
theorem Operation.tells_of_registration {x : Session σ} {op : Operation σ}
    (hop : op.registration?.isSome) : op.tells x = [] := by
  cases op with
  | subscribe | subscribeWith | subscribeErrors => rfl
  | _ => cases hop

/-- **Every operation keeps a client in accord with its ledger.** -/
theorem Client.Accords.perform {x : Session σ} {l : Ledger σ} (h : x.client.Accords l)
    (hw : x.client.Wired) (now : Timestamp) (op : Operation σ) :
    (op.perform now x).client.Accords (l.after x op) := by
  cases hop : op.registration? with
  | none =>
    obtain ⟨htells, htracked⟩ := Operation.perform_tells hw now hop
    have heffect := op.perform_effect hw now
    have hregisters : op.registers x = [] := by
      rw [Operation.registers, hop]
      exact ite_self _
    rcases op.perform_rewires hw now with hwiring | ⟨topic, kind, handler, hsome, -⟩
    · have hwaits : (l.after x op).told ++ (op.perform now x).client.unsynced =
          l.told ++ x.client.unsynced := by
        rw [Ledger.after, List.append_assoc, htells]
      refine ⟨?_, fun s => ?_, fun a index lane => ?_, fun a => ?_, ?_, fun hrun a => ?_⟩
      · rw [hwiring.subscriptions]
        exact h.apart
      · rw [hwiring.subscriptions, Ledger.after, hregisters, List.append_nil]
        exact h.latest s
      · rw [hwiring.routes, hwiring.subscriptions]
        exact h.routed a index lane
      · rw [hwiring.routes, hwaits]
        exact h.known a
      · rw [hwaits]
        exact h.once
      · rw [htracked hrun, h.tracked (heffect.running hrun), Ledger.after, List.mem_append]
    · rw [hop] at hsome
      cases hsome
  | some registration =>
    obtain ⟨topic, kind, handler⟩ := registration
    have htells : op.tells x = [] := Operation.tells_of_registration (by rw [hop]; rfl)
    cases hrun : x.client.stopped with
    | true =>
      have hafter : l.after x op = l := by
        rw [Ledger.after, htells, Operation.registers, hrun, if_pos rfl, List.append_nil,
          List.append_nil]
      rw [hafter, Operation.perform_refuses hrun now (by rw [hop]; rfl)]
      exact h
    | false =>
      have hafter : l.after x op =
          { l with registered := l.registered ++ [{ topic, kind, handler }] } := by
        rw [Ledger.after, htells, Operation.registers, hrun, hop, List.append_nil]
        rfl
      rw [hafter, Operation.perform_registers hrun now hop]
      exact h.register { topic, kind, handler }

/-! ## Runs -/

namespace Bus

/-- The ledger of a member after some actions. -/
def ledger (b : Bus σ) (i : Nat) (actions : List (Action σ)) : Ledger σ :=
  b.history (fun l x _ op => l.after x op) i {} actions

theorem accords_kept : Kept (fun (l : Ledger σ) x _ op => l.after x op) {}
    (fun m l => m.client.Accords l) where
  connected _ hs hr hu hp := Client.accords_new hs hr hu hp
  down _ _ _ h := ⟨h.apart, h.latest, h.routed, h.known, h.once, h.tracked⟩
  asked _ _ _ _ now op hsound h := h.perform hsound.wired now op

/-- **Routing is right in every run**: whatever has happened on a bus, a member accords with
what it has registered and told its connection. -/
theorem run_accords (broker : Broker) (state : σ) (actions : List (Action σ)) {i : Nat}
    {m : Member σ} (hm : (run { broker, state } actions).members[i]? = some m) :
    m.client.Accords (ledger { broker, state } i actions) :=
  run_kept accords_kept broker state actions hm

end Bus
end LaneBus
