import LaneBus.Proofs.Addresses
import LaneBus.Proofs.Resolving

/-! # Client ids

A client id joins a group and an instance, and the consumer of a lane adds the lane's name.
The group may contain dashes, but neither a lane's name nor an instance that is made up does;
so the parts can be told apart from the right, whatever the group is
(`Text.append_separator_inj`).

Hence clients of different groups, instances or lanes never share an id, and no client of a
lane has the plain id of a client whose instance is made up.  A broker notes heartbeats under
plain ids and fetches under those of lanes, so what one of them does leaves the notes about
the others alone (`Identity.client_ids_apart`).
-/
namespace LaneBus

/-- Two texts behind a last separator can be told apart from what is in front of it. -/
theorem Text.append_separator_inj {sep : Char} {s s' t t' : String} (h : sep ∉ t.toList)
    (h' : sep ∉ t'.toList) :
    s ++ sep.toString ++ t = s' ++ sep.toString ++ t' ↔ s = s' ∧ t = t' := by
  constructor
  · intro hjoined
    have hcut {s t : String} (h : sep ∉ t.toList) :
        cutLast? sep (s ++ sep.toString ++ t).toList = some (s.toList, t.toList) := by
      simp only [String.toList_append, Char.toString, String.toList_singleton, List.append_assoc]
      exact cutLast?_append h
    have hsame := hcut (s := s) h
    rw [hjoined, hcut h', Option.some.injEq, Prod.mk.injEq] at hsame
    exact ⟨String.toList_inj.mp hsame.1.symm, String.toList_inj.mp hsame.2.symm⟩
  · rintro ⟨rfl, rfl⟩
    rfl

/-! ## Notes about clients -/

/-- Nothing has been noted but signs of life of one client, and fetches of its consumers of the
lanes asked for. -/
structure Broker.Noted (identity : Identity) (asked : Lane → Prop) (b b' : Broker) : Prop where
  heartbeats : ∀ k, k ≠ identity.client → b'.heartbeats.get? k = b.heartbeats.get? k
  fetches : ∀ k, (∀ lane, asked lane → k ≠ identity.laneClient lane) →
    b'.fetches.get? k = b.fetches.get? k

namespace Broker.Noted

variable {identity : Identity} {asked wider : Lane → Prop} {b b' b'' : Broker}

theorem of_same (hheartbeats : b'.heartbeats = b.heartbeats) (hfetches : b'.fetches = b.fetches) :
    Noted identity asked b b' :=
  ⟨fun _ _ => by rw [hheartbeats], fun _ _ => by rw [hfetches]⟩

theorem refl (b : Broker) : Noted identity asked b b := of_same rfl rfl

theorem trans (h : Noted identity asked b b') (h' : Noted identity asked b' b'') :
    Noted identity asked b b'' where
  heartbeats k hk := (h'.heartbeats k hk).trans (h.heartbeats k hk)
  fetches k hk := (h'.fetches k hk).trans (h.fetches k hk)

theorem mono (h : Noted identity asked b b') (hwider : ∀ lane, asked lane → wider lane) :
    Noted identity wider b b' where
  heartbeats := h.heartbeats
  fetches k hk := h.fetches k fun lane hlane => hk lane (hwider lane hlane)

theorem foldl {α : Type} {act : Broker → α → Broker}
    (hact : ∀ b x, Noted identity asked b (act b x)) (xs : List α) (b : Broker) :
    Noted identity asked b (xs.foldl act b) := by
  induction xs generalizing b with
  | nil => exact refl b
  | cons x rest ih => exact (hact b x).trans (ih _)

end Broker.Noted

namespace Connection

open Broker (Noted)

/-- A call asks for records of a lane. -/
def Call.AsksFor (lane : Lane) : Call → Prop
  | .fetch _ addresses _ => ∃ topic, lane.address topic ∈ addresses
  | _ => False

variable {identity : Identity} {asked : Lane → Prop} {records : List Record}

theorem noteFetched_noted (now : Timestamp) (b : Broker)
    (h : ∀ r ∈ records, ∀ lane topic, lane.address topic = r.address → asked lane) :
    Noted identity asked b (noteFetched identity now b records) := by
  induction records generalizing b with
  | nil => exact .refl b
  | cons r rest ih =>
    obtain ⟨hfirst, hrest⟩ := List.forall_mem_cons.mp h
    unfold noteFetched
    split
    · exact ih b hrest
    · rename_i topic lane hsplit
      have hlane : asked lane := hfirst lane topic (Lane.splitAddress?_eq_some.mp hsplit).2
      have hfirst : Noted identity asked b
          { b with fetches := b.fetches.insert (identity.laneClient lane) now } :=
        ⟨fun _ _ => rfl,
          fun k hk => (Table.get?_insert ..).trans (if_neg (hk lane hlane).symm)⟩
      exact hfirst.trans (ih _ hrest)

theorem fetch_noted (c : Connection) (b : Broker) (now : Timestamp) (addresses : List String) :
    Noted c.identity (fun lane => ∃ topic, lane.address topic ∈ addresses) b
      (c.fetch b now addresses).2.2 := by
  unfold fetch
  split
  · exact .refl b
  · split
    · exact .refl b
    · rename_i records positions hready
      refine noteFetched_noted now b fun r hr lane topic hsame => ⟨topic, ?_⟩
      exact hsame ▸ (mem_takeReady hready hr).1

theorem fetchWaiting_noted (now : Timestamp) (addresses : List String)
    (late : List (String × String)) (c : Connection) (b : Broker) :
    Noted c.identity (fun lane => ∃ topic, lane.address topic ∈ addresses) b
      (c.fetchWaiting b now addresses late).2.2 := by
  induction late generalizing c b with
  | nil => exact c.fetch_noted b now addresses
  | cons arrival more ih =>
    have hidentity := (c.fetch_committed b now addresses).1
    have hnoted := c.fetch_noted b now addresses
    have happend (b : Broker) (late : String × String) : Noted c.identity
        (fun lane => ∃ topic, lane.address topic ∈ addresses) b (b.append late.1 late.2) :=
      .of_same rfl rfl
    unfold fetchWaiting
    split
    · rename_i c' b' hfetch
      rw [hfetch] at hidentity hnoted
      have hrest := ih c' (b'.append arrival.1 arrival.2)
      rw [hidentity] at hrest
      exact hnoted.trans ((happend b' arrival).trans hrest)
    · rename_i hfetch
      rw [hfetch] at hnoted
      exact hnoted.trans (.foldl happend (arrival :: more) _)

/-- **A call** notes nothing about other clients or other lanes. -/
theorem call_noted (c : Connection) (b : Broker) (next : Call) :
    Noted c.identity next.AsksFor b (c.call b next).2 := by
  cases next with
  | subscribe | seek | close => exact .refl b
  | fetch now addresses late => exact fetchWaiting_noted now addresses late c b
  | send address payload =>
    simp only [call, send]
    split
    · exact .refl b
    · exact .of_same rfl rfl
  | commit =>
    simp only [call, commit]
    split
    · exact .refl b
    · have hcommit (b : Broker) (entry : String × Nat) : Noted c.identity
          (Call.AsksFor · .commit) b (b.commit c.identity.group entry.1 entry.2) :=
        .of_same rfl rfl
      exact .foldl hcommit c.positions.entries b
  | heartbeat now =>
    simp only [call, heartbeat]
    split
    · exact .refl b
    · refine ⟨fun k hk => ?_, fun _ _ => rfl⟩
      exact (Table.get?_insert ..).trans (if_neg hk.symm)

/-- **Any number of calls** note nothing about other clients or other lanes. -/
theorem calls_noted (c : Connection) (b : Broker) (requests : List Call) :
    Noted c.identity (fun lane => ∃ next ∈ requests, next.AsksFor lane) b
      (c.calls b requests).2 := by
  induction requests generalizing c b with
  | nil => exact .refl b
  | cons next rest ih =>
    have hnext := c.call_noted b next
    have hrest := ih (c.call b next).1 (c.call b next).2
    rw [c.call_identity b next] at hrest
    exact .trans (hnext.mono fun lane hlane => ⟨next, List.mem_cons_self .., hlane⟩)
      (hrest.mono fun lane ⟨later, hmem, hlane⟩ => ⟨later, List.mem_cons_of_mem _ hmem, hlane⟩)

end Connection

namespace Identity

variable {i i' : Identity} {inst inst' : String} {lane lane' : Lane}

/-! ## Client ids and their parts -/

/-- An identity is resolved with an instance id, whether given or made up. -/
def ResolvedWith (i : Identity) (inst : String) : Prop :=
  ∃ name options fresh, resolve name options fresh = .ok i ∧ options.instanceId.getD fresh = inst

theorem ResolvedWith.client (h : i.ResolvedWith inst) :
    i.client = i.group ++ Lane.separator.toString ++ inst := by
  obtain ⟨name, options, fresh, hresolve, rfl⟩ := h
  exact (of_resolve hresolve).2.2.2

theorem Generated.separator_not_mem (h : Generated inst) : Lane.separator ∉ inst.toList :=
  fun hmem => absurd (h.2 _ hmem) (by decide)

theorem laneClient_inj :
    i.laneClient lane = i'.laneClient lane' ↔ lane = lane' ∧ i.client = i'.client :=
  Lane.address_inj

/-- No client of a lane has the plain id of a client whose instance is made up. -/
theorem ResolvedWith.laneClient_ne (h' : i'.ResolvedWith inst') (hmade : Generated inst')
    (i : Identity) (lane : Lane) : i.laneClient lane ≠ i'.client := by
  intro hsame
  rw [h'.client] at hsame
  obtain ⟨-, rfl⟩ := (Text.append_separator_inj lane.separator_not_mem_name
    hmade.separator_not_mem).mp hsame
  cases lane <;> exact absurd hmade.1 (by decide)

/-- **Client ids keep groups, instances and lanes apart.**  An instance that is made up is 32
hexadecimal digits, so it has no dash.  Of identities whose instances have none, the ids of
two clients are equal exactly when group and instance are, and those of two lanes exactly
when the lanes are equal too; and no lane has the plain id of an identity whose instance is
made up.  So whatever is done on a connection, the heartbeat of another identity stays, and
so does the fetch noted for a lane, unless the connection is of the same group and instance
and has asked for the lane. -/
theorem client_ids_apart (h : i.ResolvedWith inst) (h' : i'.ResolvedWith inst')
    (hinst : '-' ∉ inst.toList) (hinst' : '-' ∉ inst'.toList) :
    (∀ bytes : List UInt8, bytes.length = 16 →
      Generated (madeInstance bytes) ∧ '-' ∉ (madeInstance bytes).toList) ∧
    (i.client = i'.client ↔ i.group = i'.group ∧ inst = inst') ∧
    (∀ lane lane', i.laneClient lane = i'.laneClient lane' ↔
      i.group = i'.group ∧ inst = inst' ∧ lane = lane') ∧
    (Generated inst' → ∀ lane, i.laneClient lane ≠ i'.client) ∧
    ∀ (c : Connection) (b : Broker) (requests : List Connection.Call), c.identity = i →
      (i.group ≠ i'.group ∨ inst ≠ inst' →
        (c.calls b requests).2.heartbeats.get? i'.client = b.heartbeats.get? i'.client) ∧
      ∀ lane, i.group ≠ i'.group ∨ inst ≠ inst' ∨ (∀ next ∈ requests, ¬next.AsksFor lane) →
        (c.calls b requests).2.fetches.get? (i'.laneClient lane) =
          b.fetches.get? (i'.laneClient lane) := by
  have hclient : i.client = i'.client ↔ i.group = i'.group ∧ inst = inst' := by
    rw [h.client, h'.client]
    exact Text.append_separator_inj hinst hinst'
  have hlanes (lane lane' : Lane) : i.laneClient lane = i'.laneClient lane' ↔
      i.group = i'.group ∧ inst = inst' ∧ lane = lane' := by
    rw [laneClient_inj, hclient, and_comm, and_assoc]
  refine ⟨fun bytes hbytes => ?_, hclient, hlanes, fun hmade => h'.laneClient_ne hmade i, ?_⟩
  · have hmade := generated_madeInstance hbytes
    exact ⟨hmade, hmade.separator_not_mem⟩
  · rintro c b requests rfl
    have hnoted := c.calls_noted b requests
    refine ⟨fun hother => hnoted.heartbeats _ fun hsame => ?_,
      fun lane hother => hnoted.fetches _ ?_⟩
    · obtain ⟨hgroup, rfl⟩ := hclient.mp hsame.symm
      exact hother.elim (· hgroup) (· rfl)
    · rintro lane' ⟨next, hmem, hasks⟩ hsame
      obtain ⟨hgroup, rfl, rfl⟩ := (hlanes lane' lane).mp hsame.symm
      rcases hother with hgroups | hinsts | hnone
      · exact hgroups hgroup
      · exact hinsts rfl
      · exact hnone next hmem hasks

/-- Two groups, one of which is the other and more behind a dash, under one instance that is made
up: what one of them reads and reports is noted about it alone. -/
theorem client_ids_apart_dashed :
    let now : Timestamp := ⟨2024, 1, 1, 0, 0, 0, 0⟩
    let inst := madeInstance (List.replicate 16 0)
    let i : Identity := ⟨"memory://b", "a-b", "a-b-" ++ inst⟩
    let i' : Identity := ⟨"memory://b", "a", "a-" ++ inst⟩
    let b := (({ identity := i } : Connection).calls (.append {} "t-NORMAL" "r")
      [.subscribe ["t-NORMAL"], .heartbeat now, .fetch now ["t-NORMAL"] []]).2
    i.ResolvedWith inst ∧ i'.ResolvedWith inst ∧ '-' ∉ inst.toList ∧
      i.laneClient .normal ≠ i'.laneClient .normal ∧ i.laneClient .normal ≠ i'.client ∧
      (b.heartbeats.get? i.client = some now ∧ b.heartbeats.get? i'.client = none) ∧
      (b.fetches.get? (i.laneClient .normal) = some now ∧
        b.fetches.get? (i'.laneClient .normal) = none) := by
  intro now inst i i' b
  have h : i.ResolvedWith inst := ⟨"p", ⟨some "memory://b", some "a-b", none, 0⟩, inst, rfl, rfl⟩
  have h' : i'.ResolvedWith inst := ⟨"p", ⟨some "memory://b", some "a", none, 0⟩, inst, rfl, rfl⟩
  have hmade : Generated inst := generated_madeInstance List.length_replicate
  have hdash : '-' ∉ inst.toList := hmade.separator_not_mem
  have hgroups : i.group ≠ i'.group := by decide
  obtain ⟨-, -, hlanes, hplain, hnotes⟩ := client_ids_apart h h' hdash hdash
  obtain ⟨hheartbeat, hfetch⟩ := hnotes { identity := i } (.append {} "t-NORMAL" "r")
    [.subscribe ["t-NORMAL"], .heartbeat now, .fetch now ["t-NORMAL"] []] rfl
  exact ⟨h, h', hdash, fun hsame => hgroups ((hlanes _ _).mp hsame).1, hplain hmade .normal,
    ⟨by decide +kernel, hheartbeat (.inl hgroups)⟩,
    ⟨by decide +kernel, hfetch .normal (.inl hgroups)⟩⟩

/-- An instance with a dash may run into the group. -/
example :
    (resolve "p" ⟨some "memory://b", some "a", some "b-c", 0⟩ "").map Identity.client =
      (resolve "p" ⟨some "memory://b", some "a-b", some "c", 0⟩ "").map Identity.client := by
  decide +kernel

end Identity
end LaneBus
