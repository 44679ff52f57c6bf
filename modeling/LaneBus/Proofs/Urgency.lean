import LaneBus.Proofs.Rewiring
import LaneBus.Proofs.Supply

/-! # Urgent records first

A pass asks the priority lanes first, on their own, and all lanes only when nothing is
ready there.  The second time it may have to wait, and urgent records may come in with
the others by then, so what it takes is sorted.  This module says what comes of the two
fetches, for any set of addresses and whatever order the client goes through them in.

**Nothing urgent waits behind other records** (`Bus.run_urgentFirst`).  In every state
that a bus can reach, and for every pass of a member there (`Bus.Pass`), also one that
has to wait while others act: what is urgent is dispatched before everything else;
anything else is dispatched only if nothing urgent was unread when the pass began; and
the records of every address are dispatched one after the other, from the position that
the pass began with (`Session.Ordered`).
-/
namespace LaneBus

open Json

variable {σ : Type}

/-! ## Urgent addresses -/

/-- An address of a priority lane. -/
def Urgent (a : String) : Prop := ∃ topic, a = Lane.priority.address topic

theorem urgent_address {lane : Lane} {topic : String} :
    Urgent (lane.address topic) ↔ lane = .priority := by
  constructor
  · rintro ⟨topic', h⟩
    exact (Lane.address_inj.mp h).1
  · rintro rfl
    exact ⟨topic, rfl⟩

namespace Client

variable {c c' : Client σ}

/-- Every routed address is that of its lane of some topic. -/
def Labelled (c : Client σ) : Prop :=
  ∀ a index lane, c.routes.get? a = some (index, lane) → ∃ topic, a = lane.address topic

theorem Labelled.urgent_iff (h : c.Labelled) {a : String} {index : Nat} {lane : Lane}
    (hroute : c.routes.get? a = some (index, lane)) : Urgent a ↔ lane = .priority := by
  obtain ⟨topic, rfl⟩ := h a index lane hroute
  exact urgent_address

/-- A client sorts by what the address of a record says. -/
theorem Labelled.isPriority_iff (h : c.Labelled) {r : Record}
    (hr : (c.routes.get? r.address).isSome) : c.isPriority r = true ↔ Urgent r.address := by
  obtain ⟨⟨index, lane⟩, hroute⟩ := Option.isSome_iff_exists.mp hr
  rw [h.urgent_iff hroute, isPriority, hroute]
  cases lane <;> simp

theorem Labelled.route {topic : String} {index : Nat} (lanes : List Lane) (h : c.Labelled) :
    (route topic index c lanes).Labelled := by
  intro a i lane hroute
  rw [get?_route] at hroute
  split at hroute
  · rename_i found hfound
    obtain ⟨rfl, rfl⟩ : index = i ∧ found = lane := by simpa using hroute
    have haddress := List.find?_some hfound
    exact ⟨topic, (of_decide_eq_true haddress).symm⟩
  · exact h a i lane hroute

theorem Labelled.register (h : c.Labelled) (topic : String) (kind : SubscriptionKind)
    (handler : Handler σ) : (c.register topic kind handler).Labelled := by
  unfold Client.register
  dsimp only
  split <;> exact Labelled.route kind.lanes h

theorem SameWiring.labelled (hwiring : c.SameWiring c') (h : c.Labelled) : c'.Labelled := by
  intro a index lane hroute
  rw [hwiring.routes] at hroute
  exact h a index lane hroute

end Client

/-- Of two records that are dispatched one before the other, the later is not the more
urgent one. -/
def UrgentFirst (r r' : Record) : Prop := Urgent r'.address → Urgent r.address

/-! ## What the two fetches take -/

/-- A fetch comes back empty-handed only at the ends of the logs. -/
theorem Connection.fetch_nil {c c' : Connection} {b b' : Broker} {now : Timestamp}
    {addresses : List String} (h : c.fetch b now addresses = (.ok [], c', b')) :
    ∀ a ∈ addresses, ∀ p, c.positions.get? a = some p → (b.log a).length ≤ p := by
  unfold fetch at h
  split at h
  · cases h
  · split at h
    · cases h
    · rename_i records positions hready
      obtain ⟨rfl, -⟩ : records = [] ∧ _ := by simpa using h
      exact length_le_of_takeReady_nil hready

namespace Session

variable {x y z : Session σ} {now : Timestamp} {outcome : Except BusError (List Record)}

/-- The session once its connection knows every address that the client reads. -/
abbrev listening (x : Session σ) : Session σ :=
  { x with client := x.client.synced x.broker }

/-- Every urgent address that the client reads has been read to its end. -/
def NothingUrgent (x : Session σ) : Prop :=
  ∀ a, Urgent a → (x.client.routes.get? a).isSome →
    ∃ p, x.client.connection.positions.get? a = some p ∧ (x.broker.log a).length ≤ p

theorem takeUrgent_urgent (hl : x.client.Labelled) {records : List Record}
    (h : x.takeUrgent now = (.ok records, y)) : ∀ r ∈ records, Urgent r.address := by
  unfold takeUrgent at h
  split at h
  · obtain ⟨rfl, -⟩ : [] = records ∧ x = y := by simpa using h
    intro r hr
    cases hr
  · unfold fetch at h
    split at h
    · cases h
    · rename_i rs connection broker hfetch
      obtain ⟨rfl, -⟩ : rs = records ∧ _ := by simpa using h
      obtain ⟨-, -, -, hknown, -⟩ := Connection.fetch_ok hfetch
      intro r hr
      obtain ⟨index, lane, hroute, hlane⟩ := Client.mem_addresses_iff.mp (hknown r hr).1
      exact (hl.urgent_iff hroute).mpr (by simpa using hlane)

/-- The first fetch comes back empty-handed only when nothing urgent is unread. -/
theorem takeUrgent_nil (hl : x.client.Labelled) (ht : x.Tracked)
    (h : x.takeUrgent now = (.ok [], y)) : x.NothingUrgent := by
  intro a hurgent hrouted
  obtain ⟨p, hp⟩ := Option.isSome_iff_exists.mp (ht a hrouted)
  refine ⟨p, hp, ?_⟩
  obtain ⟨⟨index, lane⟩, hroute⟩ := Option.isSome_iff_exists.mp hrouted
  have hmem : a ∈ x.client.addresses (· == .priority) :=
    Client.mem_addresses_iff.mpr ⟨index, lane, hroute, by
      rw [(hl.urgent_iff hroute).mp hurgent]
      rfl⟩
  unfold takeUrgent at h
  split at h
  · rename_i hempty
    rw [List.isEmpty_iff.mp hempty] at hmem
    cases hmem
  · unfold fetch at h
    split at h
    · cases h
    · rename_i rs connection broker hfetch
      obtain ⟨rfl, -⟩ : rs = [] ∧ _ := by simpa using h
      exact Connection.fetch_nil hfetch a hmem p hp

/-- Sorting puts what is urgent before everything else. -/
theorem pairwise_sorted {c : Client σ} (hl : c.Labelled) {rs : List Record}
    (hknown : ∀ r ∈ rs, (c.routes.get? r.address).isSome) :
    (rs.filter c.isPriority ++ rs.filter fun r => !c.isPriority r).Pairwise UrgentFirst := by
  have hurgent (r : Record) (hr : r ∈ rs.filter c.isPriority) : Urgent r.address := by
    obtain ⟨hmem, hpriority⟩ := List.mem_filter.mp hr
    exact (hl.isPriority_iff (hknown r hmem)).mp hpriority
  have hother (r : Record) (hr : r ∈ rs.filter fun r => !c.isPriority r) :
      ¬Urgent r.address := by
    obtain ⟨hmem, hpriority⟩ := List.mem_filter.mp hr
    rw [← hl.isPriority_iff (hknown r hmem)]
    simpa using hpriority
  refine List.pairwise_append.mpr ⟨?_, ?_, ?_⟩
  · exact List.pairwise_of_forall_mem_list fun r hr r' _ _ => hurgent r hr
  · exact List.pairwise_of_forall_mem_list fun r _ r' hr' h => absurd h (hother r' hr')
  · exact fun r hr r' _ _ => hurgent r hr

theorem takeAny_urgentFirst (hl : x.client.Labelled) (ht : x.Tracked)
    (h : x.takeAny now = (outcome, z)) : (taken outcome).Pairwise UrgentFirst := by
  unfold takeAny at h
  split at h
  · rename_i records y hfetch
    obtain ⟨rfl, rfl⟩ := Prod.mk.inj h
    have htook : x.Took records y := fetch_took ht hfetch
    have hroutes := htook.routes
    refine pairwise_sorted (fun a index lane hroute => ?_) fun r hr => ?_
    · rw [hroutes] at hroute
      exact hl a index lane hroute
    · rw [hroutes]
      exact (htook.known r hr).1
  · rename_i failed hfailed
    cases outcome with
    | error e => exact .nil
    | ok records => exact absurd h (hfailed records z)

/-- **What a pass takes**: what is urgent first, and anything else only when nothing urgent
was unread, unless the pass has waited. -/
theorem gather_urgentFirst (hw : x.client.Wired) (hl : x.client.Labelled) {waited : Bool}
    (h : x.gather now waited = (outcome, z)) :
    (taken outcome).Pairwise UrgentFirst ∧
      (waited = false → (∃ r ∈ taken outcome, ¬Urgent r.address) → x.listening.NothingUrgent) := by
  have hnothing : ([] : List Record).Pairwise UrgentFirst ∧
      (waited = false → (∃ r ∈ ([] : List Record), ¬Urgent r.address) →
        x.listening.NothingUrgent) :=
    ⟨.nil, fun _ hsome => by simp at hsome⟩
  unfold gather at h
  rcases x.listen_cases with ⟨hrun, hok⟩ | ⟨e, herr⟩
  · have ht : x.listening.Tracked := fun a ha => Client.synced_tracked hw hrun x.broker ha
    rw [hok] at h
    dsimp only at h
    split at h
    · obtain ⟨rfl, rfl⟩ := Prod.mk.inj h
      exact hnothing
    · split at h
      · rename_i hwaited
        refine ⟨takeAny_urgentFirst (x := x.listening) hl ht h, fun hfalse => ?_⟩
        rw [hwaited] at hfalse
        cases hfalse
      · rw [take_eq] at h
        split at h
        · -- the first fetch was in vain, so nothing urgent was unread
          rename_i y hnone
          have htook : x.listening.Took [] y := takeUrgent_took ht hnone
          have hly : y.client.Labelled := fun a index lane hroute => by
            rw [htook.routes] at hroute
            exact hl a index lane hroute
          exact ⟨takeAny_urgentFirst hly (htook.tracked ht) h,
            fun _ _ => takeUrgent_nil (x := x.listening) hl ht hnone⟩
        · cases outcome with
          | error e => exact hnothing
          | ok records =>
            have hurgent := takeUrgent_urgent (x := x.listening) hl h
            refine ⟨List.pairwise_of_forall_mem_list fun r hr r' _ _ => hurgent r hr, ?_⟩
            rintro _ ⟨r, hr, hother⟩
            exact absurd (hurgent r hr) hother
  · rw [herr] at h
    obtain ⟨rfl, rfl⟩ := Prod.mk.inj h
    exact hnothing

/-! ## What a pass dispatches -/

/-- A pass goes through the records it has taken in order, up to where it fails. -/
theorem attempts_prefix (x : Session σ) (now : Timestamp) (records : List Record) :
    (x.attempts now records).map Attempt.record <+: records := by
  induction records generalizing x with
  | nil => exact List.prefix_rfl
  | cons r rest ih =>
    unfold attempts
    split
    · exact (List.prefix_cons_inj r).mpr (ih _)
    · exact (List.prefix_cons_inj r).mpr (List.nil_prefix ..)

/-- **The order of a pass** that a session begins, by the attempts it makes. -/
structure Ordered (x : Session σ) (ts : List Attempt) : Prop where
  /-- What is not urgent is dispatched only when nothing urgent was unread. -/
  patient : (∃ t ∈ ts, ¬Urgent t.record.address) → x.NothingUrgent
  /-- What is urgent is dispatched before everything else. -/
  urgentFirst : (ts.map Attempt.record).Pairwise UrgentFirst
  /-- Only addresses that are read have records dispatched. -/
  unread : ∀ a, x.client.connection.positions.get? a = none →
    offsetsAt a (ts.map Attempt.record) = []
  /-- The records of an address are dispatched one after the other. -/
  consecutive : ∀ a p, x.client.connection.positions.get? a = some p →
    ∃ n, offsetsAt a (ts.map Attempt.record) = List.range' p n

/-- A pass without attempts is in order. -/
theorem ordered_nil (x : Session σ) : x.Ordered [] where
  patient := by rintro ⟨t, ht, -⟩; cases ht
  urgentFirst := .nil
  unread _ _ := rfl
  consecutive _ _ _ := ⟨0, rfl⟩

theorem offsetsAt_prefix {a : String} {rs rs' : List Record} (h : rs <+: rs') :
    offsetsAt a rs <+: offsetsAt a rs' := by
  obtain ⟨more, rfl⟩ := h
  rw [offsetsAt_append]
  exact List.prefix_append ..

/-- Some first ones of consecutive offsets are consecutive. -/
theorem eq_range'_of_prefix {start n : Nat} {offsets : List Nat}
    (h : offsets <+: List.range' start n) : ∃ k, offsets = List.range' start k := by
  obtain ⟨more, hmore⟩ := h
  obtain ⟨k, -, hk, -⟩ := List.range'_eq_append_iff.mp hmore.symm
  exact ⟨k, hk⟩

/-- **A pass is in order** when, in case it has waited, nothing urgent was unread at its
beginning. -/
theorem passAttempts_ordered (hw : x.client.Wired) (hl : x.client.Labelled) (now : Timestamp)
    {waited : Bool} {start : Session σ}
    (hpositions : start.client.connection.positions =
      x.listening.client.connection.positions)
    (hstart : (waited = true ∧ start.NothingUrgent) ∨ (waited = false ∧ start = x.listening)) :
    start.Ordered (x.passAttempts now waited) := by
  unfold passAttempts
  cases hgather : x.gather now waited with
  | mk outcome y =>
    obtain ⟨hfirst, hpatient⟩ := gather_urgentFirst hw hl hgather
    cases outcome with
    | error e => exact start.ordered_nil
    | ok records =>
      have hprefix := y.attempts_prefix now records
      rcases gather_cases hw hgather with ⟨hnil, -⟩ | ⟨-, htook⟩
      · obtain rfl : records = [] := hnil
        exact start.ordered_nil
      · change x.listening.Took records y at htook
        refine ⟨?_, hfirst.sublist hprefix.sublist, fun a ha => ?_, fun a p hp => ?_⟩
        · rintro ⟨t, ht, hother⟩
          rcases hstart with ⟨-, hnothing⟩ | ⟨hatOnce, rfl⟩
          · exact hnothing
          · exact hpatient hatOnce
              ⟨t.record, hprefix.subset (List.mem_map_of_mem ht), hother⟩
        · rw [hpositions] at ha
          have htaken := offsetsAt_prefix (a := a) hprefix
          rw [(htook.advance.untracked a ha).1] at htaken
          exact List.prefix_nil.mp htaken
        · rw [hpositions] at hp
          obtain ⟨n, hoffsets, -⟩ := htook.advance.tracked a p hp
          have htaken := offsetsAt_prefix (a := a) hprefix
          rw [hoffsets] at htaken
          exact eq_range'_of_prefix htaken

/-- A pass that begins here has to wait: it can listen, and the first fetch takes nothing. -/
def Waits (x : Session σ) (now : Timestamp) : Prop :=
  ∃ y z, x.listen = (.ok (), y) ∧ y.takeUrgent now = (.ok [], z)

theorem Waits.listening (h : x.Waits now) : x.listen = (.ok (), x.listening) ∧
    x.client.stopped = false ∧ ∃ z, x.listening.takeUrgent now = (.ok [], z) := by
  obtain ⟨y, z, hlisten, hfirst⟩ := h
  rcases x.listen_cases with ⟨hrun, hok⟩ | ⟨e, herr⟩
  · obtain rfl : x.listening = y := (Prod.mk.inj (hok.symm.trans hlisten)).2
    exact ⟨hok, hrun, z, hfirst⟩
  · rw [herr] at hlisten
    cases hlisten

theorem Waits.nothingUrgent (h : x.Waits now) (hw : x.client.Wired) (hl : x.client.Labelled) :
    x.listening.NothingUrgent := by
  obtain ⟨-, hrun, z, hfirst⟩ := h.listening
  exact takeUrgent_nil (x := x.listening) hl
    (fun a ha => Client.synced_tracked hw hrun x.broker ha) hfirst

end Session

/-! ## Passes on a bus -/

/-- The action asks nothing of one of the members. -/
def Action.Spares (i : Nat) : Action σ → Prop
  | .ask j _ _ => j ≠ i
  | _ => True

namespace Bus

variable {b : Bus σ} {i : Nat} {now : Timestamp}

/-- **The passes of a member**, by the attempts that they make.  One that finds something
urgent, or does not have to wait, takes place at once.  One that has to wait goes on after
others have acted. -/
inductive Pass (b : Bus σ) (i : Nat) (now : Timestamp) : List Attempt → Prop where
  | atOnce (m : Member σ) (hm : b.members[i]? = some m) :
    Pass b i now (Operation.poll.attempts now (m.session b.broker b.state))
  | waited (m m' : Member σ) (others : List (Action σ)) (later : Timestamp)
      (hm : b.members[i]? = some m) (hwaits : (m.session b.broker b.state).Waits now)
      (hspared : ∀ action ∈ others, action.Spares i)
      (hm' : ((b.apply (.ask i now .listen)).run others).members[i]? = some m') :
    Pass b i now (Operation.resume.attempts later
      (m'.session ((b.apply (.ask i now .listen)).run others).broker
        ((b.apply (.ask i now .listen)).run others).state))

/-- Others leave a client as it is, but for the calls that are down. -/
theorem client_of_spared {m : Member σ} (hm : b.members[i]? = some m) {action : Action σ}
    (h : action.Spares i) : ∃ m' outage, (b.apply action).members[i]? = some m' ∧
      m'.client = { m.client with connection := { m.client.connection with outage } } := by
  rcases getElem?_apply hm action with
    ⟨later, op, rfl, -⟩ | ⟨outage, rfl, hdown⟩ | ⟨-, hsame⟩
  · exact absurd rfl h
  · exact ⟨_, { outage with seek := false }, hdown, rfl⟩
  · exact ⟨m, m.client.connection.outage, hsame, rfl⟩

theorem client_of_all_spared {m : Member σ} (hm : b.members[i]? = some m)
    {actions : List (Action σ)} (h : ∀ action ∈ actions, action.Spares i) :
    ∃ m' outage, (b.run actions).members[i]? = some m' ∧
      m'.client = { m.client with connection := { m.client.connection with outage } } := by
  induction actions generalizing b m with
  | nil => exact ⟨m, m.client.connection.outage, hm, rfl⟩
  | cons action rest ih =>
    obtain ⟨haction, hrest⟩ := List.forall_mem_cons.mp h
    obtain ⟨m₁, down, hm₁, hclient₁⟩ := client_of_spared hm haction
    obtain ⟨m₂, outage, hm₂, hclient₂⟩ := ih hm₁ hrest
    exact ⟨m₂, outage, hm₂, by rw [hclient₂, hclient₁]⟩

/-- The routes of every member bear the names of their lanes. -/
def Labelled (b : Bus σ) : Prop := ∀ m ∈ b.members, m.client.Labelled

theorem Labelled.apply (hs : b.Sound) (h : b.Labelled) (action : Action σ) :
    (b.apply action).Labelled := by
  refine forall_clients_apply hs h ?_ ?_ ?_ ?_
  · intro c _ hroutes _ a index lane hroute
    rw [hroutes] at hroute
    cases hroute
  · exact fun c c' hwiring hc => hwiring.labelled hc
  · exact fun _ _ _ _ hm => hm
  · exact fun _ _ _ _ topic kind handler _ _ _ hm => hm.register topic kind handler

theorem run_labelled (hs : b.Sound) (h : b.Labelled) (actions : List (Action σ)) :
    (b.run actions).Labelled := by
  induction actions generalizing b with
  | nil => exact h
  | cons action rest ih => exact ih ((b.step_apply action).sound hs) (h.apply hs action)

/-- A pass is in order, from a bus in a consistent state. -/
theorem Pass.ordered {ts : List Attempt} (h : b.Pass i now ts) (hs : b.Sound)
    (hl : b.Labelled) : ∃ m, b.members[i]? = some m ∧
      (m.session b.broker b.state).listening.Ordered ts := by
  cases h with
  | atOnce m hm =>
    have hmem := List.mem_of_getElem? hm
    exact ⟨m, hm, Session.passAttempts_ordered (hs.member m hmem).wired (hl m hmem) now rfl
      (.inr ⟨rfl, rfl⟩)⟩
  | waited m m' others later hm hwaits hspared hm' =>
    have hmem := List.mem_of_getElem? hm
    have hstart := hwaits.nothingUrgent (hs.member m hmem).wired (hl m hmem)
    refine ⟨m, hm, ?_⟩
    -- the member has listened, and nobody has moved it while it waited
    have hs' := run_sound ((b.step_apply (.ask i now .listen)).sound hs) others
    have hl' := run_labelled ((b.step_apply (.ask i now .listen)).sound hs)
      (hl.apply hs (.ask i now .listen)) others
    have hlistened := getElem?_ask hm now .listen
    obtain ⟨m'', outage, hm'', hclient⟩ := client_of_all_spared hlistened hspared
    obtain rfl : m' = m'' := Option.some.inj (hm'.symm.trans hm'')
    have hafter : (m.after b.broker b.state now .listen).client =
        m.client.synced b.broker := by
      show (m.session b.broker b.state).listen.2.client = _
      rw [hwaits.listening.1]
      rfl
    have hmem' := List.mem_of_getElem? hm'
    refine Session.passAttempts_ordered (hs'.member m' hmem').wired (hl' m' hmem') later ?_
      (.inl ⟨rfl, hstart⟩)
    have hunsynced : m'.client.unsynced = [] := by
      rw [hclient, hafter]
      rfl
    show (m.client.synced b.broker).connection.positions =
      (m'.client.synced _).connection.positions
    rw [Client.synced_of_nil hunsynced, hclient, hafter]

/-- **Nothing urgent waits behind other records.**  Whatever has happened on a bus, every
pass of a member dispatches what is urgent before everything else, anything else only if
nothing urgent was unread when it began, and the records of each address one after the
other. -/
theorem run_urgentFirst (broker : Broker) (state : σ) (actions : List (Action σ)) {i : Nat}
    {now : Timestamp} {ts : List Attempt} (h : (run { broker, state } actions).Pass i now ts) :
    ∃ m, (run { broker, state } actions).members[i]? = some m ∧
      (m.session (run { broker, state } actions).broker
        (run { broker, state } actions).state).listening.Ordered ts := by
  have hs := sound_of_no_members broker state
  have hl : ({ broker, state } : Bus σ).Labelled := fun m hm => by cases hm
  exact h.ordered (run_sound hs actions) (run_labelled hs hl actions)

/-- A pass waits; a record comes in on the normal lane, and then an urgent one, and the
urgent one is dispatched first. -/
theorem run_urgentFirst_waited :
    let now : Timestamp := ⟨2024, 1, 1, 0, 0, 0, 0⟩
    let actions : List (Action Unit) := [
      .connect { url := "memory://b", group := "g", client := "c" }
        { plugin := "p", version := "1", host := "h" } ⟨id, fun _ => .refl _⟩,
      .ask 0 now (.subscribe "in" fun (_ : Envelope Value Value) _ outbox state =>
        (.done, outbox, state))]
    let ts : List Attempt := [⟨⟨"in-PRIORITY", 0, "2"⟩, true⟩, ⟨⟨"in-NORMAL", 0, "1"⟩, true⟩]
    (run { state := () } actions).Pass 0 now ts ∧
      ∃ m, (run { state := () } actions).members[0]? = some m ∧
        (m.session (run { state := () } actions).broker ()).listening.Ordered ts := by
  intro now actions ts
  let b := run { state := () } actions
  let others : List (Action Unit) := [.append "in-NORMAL" "1", .append "in-PRIORITY" "2"]
  let b' := (b.apply (.ask 0 now .listen)).run others
  obtain ⟨m', hm', hattempts⟩ : ∃ m', b'.members[0]? = some m' ∧
      Operation.resume.attempts now (m'.session b'.broker b'.state) = ts := by
    refine ⟨_, rfl, ?_⟩
    decide +kernel
  have hpass : b.Pass 0 now ts := by
    rw [← hattempts]
    exact .waited _ m' others now rfl ⟨_, _, rfl, rfl⟩ (by simp [others, Action.Spares]) hm'
  exact ⟨hpass, run_urgentFirst {} () actions hpass⟩

end Bus
end LaneBus
