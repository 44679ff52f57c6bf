import LaneBus.Proofs.Runs

/-! # What rewires a client

The wiring of a client is what decides where its records go and what they are handed to:
its identity, its routes, its subscriptions, the producer that they write for, and the calls
of its connection that are down (`Client.SameWiring`).  An operation registers one handler, or
it leaves the wiring alone (`Operation.perform_rewires`); the operations of others leave
it alone too.  So what is true of new clients, and stays true when a handler is
registered or when calls go down, is true of every member of a bus
(`Bus.forall_clients_apply`).
-/
namespace LaneBus

open Json

variable {σ : Type}

/-! ## One operation -/

namespace Client

/-- Two clients are wired alike. -/
structure SameWiring (c c' : Client σ) : Prop where
  identity : c'.connection.identity = c.connection.identity
  routes : c'.routes = c.routes
  subscriptions : c'.subscriptions = c.subscriptions
  provenance : c'.provenance = c.provenance
  outage : c'.connection.outage = c.connection.outage

theorem SameWiring.refl (c : Client σ) : c.SameWiring c :=
  ⟨rfl, rfl, rfl, rfl, rfl⟩

theorem SameWiring.of_eq {c c' : Client σ} (h : c' = c) : c.SameWiring c' :=
  h ▸ .refl c

theorem SameWiring.trans {c c' c'' : Client σ} (h : c.SameWiring c') (h' : c'.SameWiring c'') :
    c.SameWiring c'' :=
  ⟨h'.identity.trans h.identity, h'.routes.trans h.routes,
    h'.subscriptions.trans h.subscriptions, h'.provenance.trans h.provenance,
    h'.outage.trans h.outage⟩

theorem SameWiring.receiver? {c c' : Client σ} (h : c.SameWiring c') (a : String) :
    c'.receiver? a = c.receiver? a := by
  rw [Client.receiver?, Client.receiver?, h.routes, h.subscriptions]

theorem route_provenance (topic : String) (index : Nat) (c : Client σ) (lanes : List Lane) :
    (route topic index c lanes).provenance = c.provenance := by
  induction lanes generalizing c with
  | nil => rfl
  | cons lane rest ih => exact ih _

theorem register_provenance (c : Client σ) (topic : String) (kind : SubscriptionKind)
    (handler : Handler σ) : (c.register topic kind handler).provenance = c.provenance := by
  unfold register
  dsimp only
  split <;> exact route_provenance ..

/-- The handlers of a client are the registered one and those that it has had. -/
theorem mem_subscriptions_register {c : Client σ} {topic : String} {kind : SubscriptionKind}
    {handler : Handler σ} {s : Subscription σ}
    (h : s ∈ (c.register topic kind handler).subscriptions) :
    s.handler = handler ∨ ∃ s' ∈ c.subscriptions, s'.handler = s.handler := by
  unfold register at h
  dsimp only at h
  split at h
  · rw [subscriptions_route] at h
    obtain ⟨i, hi⟩ := List.mem_iff_getElem?.mp h
    rw [List.getElem?_modify] at hi
    obtain ⟨s', hs', rfl⟩ := Option.map_eq_some_iff.mp hi
    split
    · exact .inl rfl
    · exact .inr ⟨s', List.mem_of_getElem? hs', rfl⟩
  · rw [subscriptions_route] at h
    rcases List.mem_append.mp h with h | h
    · exact .inr ⟨s, h, rfl⟩
    · rw [List.mem_singleton.mp h]
      exact .inl rfl

end Client

theorem Session.gather_wiring {x y : Session σ} {now : Timestamp} {waited : Bool}
    {outcome : Except BusError (List Record)} (hw : x.client.Wired)
    (h : x.gather now waited = (outcome, y)) : x.client.SameWiring y.client := by
  rcases Session.gather_cases hw h with ⟨-, rfl⟩ | ⟨-, htook⟩
  · exact .refl _
  · obtain ⟨positions, hclient⟩ := htook.client
    rw [hclient]
    exact ⟨rfl, rfl, rfl, rfl, rfl⟩

theorem Session.pass_wiring {x : Session σ} (hw : x.client.Wired) (now : Timestamp)
    (waited : Bool) : x.client.SameWiring (x.pass now waited).2.client := by
  rcases Session.pass_cases hw now waited with ⟨-, hsame⟩ | ⟨-, hpassed⟩
  · exact .of_eq (by rw [hsame])
  · obtain ⟨positions, hclient⟩ := hpassed.client
    rw [hclient]
    exact ⟨rfl, rfl, rfl, rfl, rfl⟩

theorem Session.listen_wiring (x : Session σ) : x.client.SameWiring x.listen.2.client := by
  rcases x.listen_cases with ⟨-, hok⟩ | ⟨e, herr⟩
  · rw [hok]
    exact ⟨rfl, rfl, rfl, rfl, rfl⟩
  · exact .of_eq (by rw [herr])

theorem Session.stop_wiring (x : Session σ) : x.client.SameWiring x.stop.2.client := by
  unfold stop
  split
  · exact .refl _
  · dsimp only
    cases hclose : x.client.connection.close with
    | error e => exact ⟨rfl, rfl, rfl, rfl, rfl⟩
    | ok connection =>
      unfold Connection.close at hclose
      split at hclose
      · cases hclose
      · cases hclose
        exact ⟨rfl, rfl, rfl, rfl, rfl⟩

namespace Operation

/-- The handler that an operation registers, with its topic and what it is for. -/
def registration? : Operation σ → Option (String × SubscriptionKind × Handler σ)
  | subscribe topic callback => some (topic, .consumer, .consumer callback defaultReport)
  | subscribeWith topic callback onError =>
    some (topic, .consumer, .consumer callback onError.report)
  | subscribeErrors topic callback => some (topic, .monitor, .monitor callback)
  | _ => none

/-- **An operation registers one handler, or it leaves the wiring alone.** -/
theorem perform_rewires {x : Session σ} (hw : x.client.Wired) (now : Timestamp)
    (op : Operation σ) :
    x.client.SameWiring (op.perform now x).client ∨
      ∃ topic kind handler, op.registration? = some (topic, kind, handler) ∧
        (op.perform now x).client = x.client.register topic kind handler := by
  have hregistered (topic : String) (kind : SubscriptionKind) (handler : Handler σ) :
      x.client.SameWiring (x.registered (if x.client.stopped then .error .stopped
          else .ok (x.client.register topic kind handler))).client ∨
        (x.registered (if x.client.stopped then .error .stopped
          else .ok (x.client.register topic kind handler))).client =
            x.client.register topic kind handler := by
    split
    · exact .inl (.refl _)
    · exact .inr rfl
  cases op with
  | subscribe topic callback =>
    exact (hregistered topic _ _).imp_right fun h => ⟨topic, _, _, rfl, h⟩
  | subscribeWith topic callback onError =>
    exact (hregistered topic _ _).imp_right fun h => ⟨topic, _, _, rfl, h⟩
  | subscribeErrors topic callback =>
    exact (hregistered topic _ _).imp_right fun h => ⟨topic, _, _, rfl, h⟩
  | publish value topic lane => exact .inl (.of_eq (x.publish_steady now value topic lane).client)
  | publishDerived input value topic lane =>
    exact .inl (.of_eq (x.publishDerived_steady now input value topic lane).client)
  | publishError input failure topic =>
    exact .inl (.of_eq (x.publishError_steady now input failure topic).client)
  | poll => exact .inl (Session.pass_wiring hw now false)
  | listen => exact .inl x.listen_wiring
  | resume => exact .inl (Session.pass_wiring hw now true)
  | commit => exact .inl (.of_eq x.commit_client)
  | heartbeat => exact .inl (.of_eq (x.heartbeat_client now))
  | stop => exact .inl x.stop_wiring

end Operation

/-! ## One action -/

namespace Bus

variable {b : Bus σ}

/-- **What stays true of the clients of a bus**: it is true of a client without
subscriptions, it only depends on the wiring, and it stays true when calls go down and
when a handler is registered. -/
theorem forall_clients_apply {P : Client σ → Prop} (hs : b.Sound)
    (h : ∀ m ∈ b.members, P m.client) {action : Action σ}
    (hnew : ∀ c : Client σ, c.subscriptions = [] → c.routes = .empty →
      c.connection.outage = {} → P c)
    (hsame : ∀ c c' : Client σ, c.SameWiring c' → P c → P c')
    (hdown : ∀ i outage (m : Member σ), action = .outage i outage → P m.client →
      P (m.withOutage outage).client)
    (hregister : ∀ i now op (m : Member σ) topic kind handler, action = .ask i now op →
      b.members[i]? = some m → op.registration? = some (topic, kind, handler) → P m.client →
        P (m.client.register topic kind handler)) :
    ∀ m ∈ (b.apply action).members, P m.client := by
  have hset {i : Nat} {m' : Member σ} (hm' : P m'.client) :
      ∀ m ∈ b.members.set i m', P m.client := by
    intro m hm
    rcases List.mem_or_eq_of_mem_set hm with hm | rfl
    · exact h m hm
    · exact hm'
  cases action with
  | append address payload => exact h
  | connect identity provenance itinerary =>
    intro m hm
    rcases List.mem_append.mp hm with hm | hm
    · exact h m hm
    · rw [List.mem_singleton.mp hm]
      exact hnew _ rfl rfl rfl
  | outage i outage =>
    cases hm : b.members[i]? with
    | none => simp only [apply, hm]; exact h
    | some m =>
      simp only [apply, hm]
      exact hset (hdown i outage m rfl (h m (List.mem_of_getElem? hm)))
  | ask i now op =>
    cases hm : b.members[i]? with
    | none => simp only [apply, hm]; exact h
    | some m =>
      simp only [apply, hm]
      have hmem := List.mem_of_getElem? hm
      refine hset ?_
      rcases op.perform_rewires (x := m.session b.broker b.state) (hs.member m hmem).wired now with
        hwiring | ⟨topic, kind, handler, hop, hclient⟩
      · exact hsame _ _ hwiring (h m hmem)
      · show P (op.perform now (m.session b.broker b.state)).client
        rw [hclient]
        exact hregister i now op m topic kind handler rfl hm hop (h m hmem)

end Bus
end LaneBus
