import LaneBus.Proofs.Wiring
import Mathlib.Data.List.Induction

/-! # Who an address is left to

A subscription is registered for a topic and a kind, and takes the place of an earlier one for
the same.  An address belongs to one topic and one lane, so to one kind, whatever the topic
looks like (`Subscription.Owns.same`).  Of some registrations in a row, an address is thus left
to the last one made for its topic and kind, and to no other (`owner?_eq_some_iff`).
-/
namespace LaneBus

variable {σ : Type}

/-- The one kind of subscription that reads a lane. -/
def Lane.reader : Lane → SubscriptionKind
  | error => .monitor
  | _ => .consumer

theorem SubscriptionKind.mem_lanes_iff {kind : SubscriptionKind} {lane : Lane} :
    lane ∈ kind.lanes ↔ lane.reader = kind := by
  cases kind <;> cases lane <;> decide

theorem SubscriptionKind.nodup_lanes (kind : SubscriptionKind) : kind.lanes.Nodup := by
  cases kind <;> decide

namespace Subscription

/-- What a subscription is for.  A registration takes the place of an earlier one with the
same key. -/
def key (s : Subscription σ) : String × SubscriptionKind := (s.topic, s.kind)

/-- The address is that of a lane that the subscription reads. -/
def Owns (s : Subscription σ) (lane : Lane) (a : String) : Prop :=
  lane ∈ s.kind.lanes ∧ lane.address s.topic = a

/-- **An address belongs to one key and one lane.** -/
theorem Owns.same {s s' : Subscription σ} {lane lane' : Lane} {a : String} (h : s.Owns lane a)
    (h' : s'.Owns lane' a) : s.key = s'.key ∧ lane = lane' := by
  obtain ⟨hlane, ha⟩ := h
  obtain ⟨hlane', ha'⟩ := h'
  obtain ⟨rfl, htopic⟩ := Lane.address_inj.mp (ha.trans ha'.symm)
  rw [SubscriptionKind.mem_lanes_iff] at hlane hlane'
  exact ⟨Prod.ext htopic (hlane.symm.trans hlane'), rfl⟩

theorem Owns.of_key {s s' : Subscription σ} {lane : Lane} {a : String} (h : s.Owns lane a)
    (hkey : s.key = s'.key) : s'.Owns lane a := by
  obtain ⟨htopic, hkind⟩ := Prod.mk.inj hkey
  exact ⟨hkind ▸ h.1, htopic ▸ h.2⟩

/-- The lane that an address is of, among those that the subscription reads. -/
def lane? (s : Subscription σ) (a : String) : Option Lane :=
  s.kind.lanes.find? fun lane => lane.address s.topic = a

theorem lane?_eq_some_iff {s : Subscription σ} {lane : Lane} {a : String} :
    s.lane? a = some lane ↔ s.Owns lane a := by
  constructor
  · intro h
    exact ⟨List.mem_of_find?_eq_some h, by simpa using List.find?_some h⟩
  · rintro ⟨hlane, rfl⟩
    rw [lane?, Client.find?_address, if_pos hlane]

theorem lane?_eq_none_iff {s : Subscription σ} {a : String} :
    s.lane? a = none ↔ ∀ lane, ¬s.Owns lane a := by
  simp only [Option.eq_none_iff_forall_ne_some, ne_eq, lane?_eq_some_iff]

end Subscription

/-! ## The last registrations -/

/-- A registration that no later one has taken the place of. -/
def Latest (registered : List (Subscription σ)) (s : Subscription σ) : Prop :=
  ∃ older newer, registered = older ++ s :: newer ∧ ∀ s' ∈ newer, s'.key ≠ s.key

theorem latest_concat {registered : List (Subscription σ)} {new s : Subscription σ} :
    Latest (registered ++ [new]) s ↔ s = new ∨ (new.key ≠ s.key ∧ Latest registered s) := by
  constructor
  · rintro ⟨older, newer, heq, hnewer⟩
    rcases newer.eq_nil_or_concat with rfl | ⟨others, last, rfl⟩
    · exact .inl (List.head_eq_of_cons_eq (List.append_inj' heq rfl).2).symm
    · rw [List.concat_eq_append, ← List.cons_append, ← List.append_assoc] at heq
      obtain ⟨rfl, hlast⟩ := List.append_inj' heq rfl
      obtain rfl : new = last := List.head_eq_of_cons_eq hlast
      rw [List.concat_eq_append] at hnewer
      exact .inr ⟨hnewer new (by simp), older, others, rfl,
        fun s' hs' => hnewer s' (List.mem_append_left _ hs')⟩
  · rintro (rfl | ⟨hne, older, newer, rfl, hnewer⟩)
    · exact ⟨registered, [], rfl, fun s' hs' => (by cases hs')⟩
    · refine ⟨older, newer ++ [new], by simp, fun s' hs' => ?_⟩
      rcases List.mem_append.mp hs' with hs' | hs'
      · exact hnewer s' hs'
      · rw [List.mem_singleton.mp hs']
        exact hne

/-- Every key that was registered has a latest registration. -/
theorem exists_latest {registered : List (Subscription σ)} {key : String × SubscriptionKind} :
    key ∈ registered.map Subscription.key ↔ ∃ s, Latest registered s ∧ s.key = key := by
  constructor
  · induction registered using List.reverseRecOn with
    | nil => intro h; cases h
    | append_singleton older new ih =>
      intro h
      by_cases hnew : new.key = key
      · exact ⟨new, latest_concat.mpr (.inl rfl), hnew⟩
      · rw [List.map_append, List.mem_append, or_iff_left (by simpa using Ne.symm hnew)] at h
        obtain ⟨s, hs, rfl⟩ := ih h
        exact ⟨s, latest_concat.mpr (.inr ⟨hnew, hs⟩), rfl⟩
  · rintro ⟨s, ⟨older, newer, rfl, -⟩, rfl⟩
    simp

/-- The registration that an address is left to, with its lane: the last one that was made for
the address. -/
def owner? (registered : List (Subscription σ)) (a : String) : Option (Subscription σ × Lane) :=
  registered.reverse.findSome? fun s => (s.lane? a).map (s, ·)

theorem owner?_concat (registered : List (Subscription σ)) (new : Subscription σ) (a : String) :
    owner? (registered ++ [new]) a = ((new.lane? a).map (new, ·)).or (owner? registered a) := by
  rw [owner?, List.reverse_append, List.reverse_singleton, List.singleton_append,
    List.findSome?_cons]
  split
  · rename_i found hfound
    rw [hfound, Option.some_or]
  · rename_i hnone
    rw [hnone, Option.none_or, owner?]

/-- **The owner of an address** is the latest registration under the key that the address
belongs to. -/
theorem owner?_eq_some_iff {registered : List (Subscription σ)} {a : String}
    {s : Subscription σ} {lane : Lane} :
    owner? registered a = some (s, lane) ↔ Latest registered s ∧ s.Owns lane a := by
  induction registered using List.reverseRecOn with
  | nil =>
    refine ⟨fun h => (by cases h), ?_⟩
    rintro ⟨⟨older, newer, hnil, -⟩, -⟩
    exact absurd hnil.symm (by simp)
  | append_singleton older new ih =>
    rw [owner?_concat, latest_concat]
    cases hlane : new.lane? a with
    | some found =>
      have howns : new.Owns found a := Subscription.lane?_eq_some_iff.mp hlane
      rw [Option.map_some, Option.some_or, Option.some.injEq, Prod.mk.injEq]
      constructor
      · rintro ⟨rfl, rfl⟩
        exact ⟨.inl rfl, howns⟩
      · rintro ⟨rfl | ⟨hne, -⟩, hs⟩
        · exact ⟨rfl, (howns.same hs).2⟩
        · exact absurd (howns.same hs).1 hne
    | none =>
      have hnone := Subscription.lane?_eq_none_iff.mp hlane
      rw [Option.map_none, Option.none_or, ih]
      constructor
      · rintro ⟨hs, howns⟩
        exact ⟨.inr ⟨fun hkey => hnone lane (howns.of_key hkey.symm), hs⟩, howns⟩
      · rintro ⟨rfl | ⟨-, hs⟩, howns⟩
        · exact absurd howns (hnone lane)
        · exact ⟨hs, howns⟩

end LaneBus
