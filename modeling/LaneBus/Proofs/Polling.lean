import LaneBus.Proofs.Delivering
import Mathlib.Algebra.BigOperators.Group.List.Basic
import Mathlib.Algebra.GroupWithZero.Nat

/-! # How far a poll moves

A poll that goes through counts records, and it moves positions.  The place of an address is its
position once the connection knows the address, so that an address which is new to the connection
has moved from where it began.  Summed up over all addresses, the places have moved by as many
records as the poll counts (`Session.poll_polled`), and a commit makes them durable
(`Session.commit_ok`).
-/
namespace LaneBus

variable {σ : Type}

/-! ## Sums over addresses -/

theorem sum_map_add_ite {keys : List String} (hnodup : keys.Nodup) {x : String} (hx : x ∈ keys)
    (f : String → Nat) :
    (keys.map fun a => f a + if x = a then 1 else 0).sum = (keys.map f).sum + 1 := by
  induction keys with
  | nil => cases hx
  | cons key rest ih =>
    obtain ⟨hfresh, hrest⟩ := List.nodup_cons.mp hnodup
    rw [List.map_cons, List.map_cons, List.sum_cons, List.sum_cons]
    rcases List.mem_cons.mp hx with rfl | hmem
    · have hothers : (rest.map fun a => f a + if x = a then 1 else 0) = rest.map f :=
        List.map_congr_left fun a ha => by
          rw [if_neg fun heq : x = a => hfresh (heq ▸ ha), Nat.add_zero]
      rw [hothers, if_pos rfl]
      omega
    · rw [ih hrest hmem, if_neg fun heq : x = key => hfresh (heq ▸ hmem)]
      omega

/-- Attempts at some addresses, counted address by address. -/
theorem sum_length_attemptsAt {keys : List String} (hnodup : keys.Nodup) {ts : List Attempt}
    (h : ∀ t ∈ ts, t.record.address ∈ keys) :
    (keys.map fun a => (attemptsAt a ts).length).sum = ts.length := by
  induction ts with
  | nil => simp [attemptsAt, List.map_const']
  | cons t rest ih =>
    obtain ⟨ht, hrest⟩ := List.forall_mem_cons.mp h
    have hlength (a : String) : (attemptsAt a (t :: rest)).length =
        (attemptsAt a rest).length + if t.record.address = a then 1 else 0 := by
      by_cases ha : t.record.address = a <;> simp [attemptsAt, ha]
    simp only [hlength]
    rw [sum_map_add_ite hnodup ht, ih hrest, List.length_cons]

theorem Table.mem_keys_iff {α : Type} {t : Table String α} {k : String} :
    k ∈ t.keys ↔ (t.get? k).isSome := by
  rw [keys, List.mem_map, Option.isSome_iff_exists]
  constructor
  · rintro ⟨⟨l, a⟩, hmem, rfl⟩
    exact ⟨a, get?_eq_some_of_mem hmem⟩
  · rintro ⟨a, ha⟩
    exact ⟨(k, a), mem_entries_iff.mpr ha, rfl⟩

/-! ## One poll -/

namespace Session

variable {x y z : Session σ} {now : Timestamp} {n : Nat}

/-- The position of an address, once the connection knows all that the client reads. -/
def place (x : Session σ) (a : String) : Option Nat :=
  x.listening.client.connection.positions.get? a

theorem place_of_nil (h : x.client.unsynced = []) (a : String) :
    x.place a = x.client.connection.positions.get? a := by
  change (x.client.synced x.broker).connection.positions.get? a = _
  rw [Client.synced_of_nil h]

/-- A place depends on the client and on what has been committed. -/
theorem place_congr (hclient : y.client = x.client)
    (hcommitted : y.broker.committed = x.broker.committed) (a : String) :
    y.place a = x.place a := by
  rw [place, place, Client.get?_synced, Client.get?_synced, hclient]
  simp only [Broker.committedOffset, hcommitted]

/-- A poll that has gone through has moved the places over as many records as it says. -/
structure Polled (x : Session σ) (n : Nat) (y : Session σ) : Prop where
  wired : y.client.Wired
  running : x.client.stopped = false
  stopped : y.client.stopped = x.client.stopped
  wiring : x.client.SameWiring y.client
  told : y.client.unsynced = []
  committed : y.broker.committed = x.broker.committed
  moved : ∃ moved : String → Nat, (∀ a p, x.place a = some p → y.place a = some (p + moved a)) ∧
    n = (x.client.routes.keys.map moved).sum
  rested : n = 0 → ∀ a, y.place a = x.place a

theorem poll_polled (hw : x.client.Wired) (h : x.poll now = (.ok n, y)) : x.Polled n y := by
  have hok : (x.pass now false).1 = .ok n := congrArg Prod.fst h
  have hafter : (x.pass now false).2 = y := congrArg Prod.snd h
  rcases x.listen_cases with ⟨hrun, hlisten⟩ | ⟨e, herr⟩
  · obtain ⟨hlength, hcompleted⟩ := pass_ok hw hok
    have hpassed := pass_of_listen hw hrun hlisten now false
    have hwiring := pass_wiring hw now false
    have heffect : Effect x.broker x.client (x.passAttempts now false)
        (x.pass now false).2.client := x.pass_effect hw false
    have hwired := heffect.wired
    rw [hafter] at hpassed hwiring hwired
    have htold := hpassed.told.1
    have hcount (a : String) : completedCount (attemptsAt a (x.passAttempts now false)) =
        (attemptsAt a (x.passAttempts now false)).length :=
      List.countP_eq_length.mpr fun t ht => hcompleted t (List.mem_filter.mp ht).1
    have hstopped : y.client.stopped = x.client.stopped := by
      obtain ⟨positions, hclient⟩ := hpassed.client
      rw [hclient]
      rfl
    refine ⟨hwired, hrun, hstopped, hwiring, htold, hpassed.grows.committed,
      ⟨fun a => (attemptsAt a (x.passAttempts now false)).length, fun a p hp => ?_, ?_⟩,
      fun hzero a => ?_⟩
    · rw [place_of_nil htold, (hpassed.progress.tracked a p hp).2, hcount]
    · rw [← hlength]
      refine (sum_length_attemptsAt x.client.routes.nodup fun t ht => ?_).symm
      have howned := passAttempts_owned hw now false t.record (List.mem_map_of_mem ht)
      refine Table.mem_keys_iff.mpr ?_
      cases hroute : x.client.routes.get? t.record.address with
      | none => simp [Client.receiver?, hroute] at howned
      | some route => rfl
    · have hnil : x.passAttempts now false = [] :=
        List.eq_nil_of_length_eq_zero (hlength.trans hzero)
      have hprogress := hpassed.progress
      rw [hnil] at hprogress
      rw [place_of_nil htold]
      cases hp : x.place a with
      | none => exact (hprogress.untracked a hp).2
      | some p => exact (hprogress.tracked a p hp).2
  · rw [(pass_of_not_listen herr now false).2] at hok
    cases hok

/-- A commit that goes through makes the positions durable. -/
theorem commit_ok (hw : x.client.Wired) (h : x.commit = (.ok (), y)) : y.client = x.client ∧
    ∀ g a, y.broker.committedOffset g a =
      if g = x.client.connection.identity.group then
        (x.client.connection.positions.get? a).or (x.broker.committedOffset g a)
      else x.broker.committedOffset g a := by
  have hclient := x.commit_client
  have hcommits : x.Commits := by
    unfold commit at h
    split at h
    · cases h
    · rename_i hrun
      refine ⟨by simpa using hrun, ?_⟩
      cases hdown : x.client.connection.outage.commit with
      | false => rfl
      | true => simp [Connection.commit, Connection.usable, hdown] at h
  have hcommitted := (commit_eq hw).2
  rw [h] at hclient hcommitted
  refine ⟨hclient, fun g a => ?_⟩
  rw [hcommitted]
  exact if_congr (and_iff_right hcommits) rfl rfl

end Session

end LaneBus
