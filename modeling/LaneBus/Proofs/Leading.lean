import LaneBus.Proofs.Runs

/-! # Groups of one member

Members of one group commit over each other, so what a group has committed may lie before or
behind the position of any of them.  A member that has its group to itself is never behind: what
its group has committed is what the group had when the member came to read an address, or some
earlier position of the member itself (`Bus.run_ahead`).
-/
namespace LaneBus

variable {σ : Type}

/-- No position lies before what a group has committed. -/
def Ahead (b : Broker) (group : String) (positions : Table String Nat) : Prop :=
  ∀ a p, positions.get? a = some p → (b.committedOffset group a).getD 0 ≤ p

/-- Nor does one that is new to the connection, since it starts there. -/
theorem Ahead.synced {c : Client σ} {b : Broker}
    (h : Ahead b c.connection.identity.group c.connection.positions) :
    Ahead b c.connection.identity.group (c.synced b).connection.positions := by
  intro a p hp
  rw [Client.get?_synced] at hp
  cases hold : c.connection.positions.get? a with
  | some q =>
    rw [hold, Option.some_or] at hp
    obtain rfl := Option.some.inj hp
    exact h a q hold
  | none =>
    rw [hold, Option.none_or] at hp
    split at hp
    · exact Nat.le_of_eq (Option.some.inj hp)
    · cases hp

/-- What a client does leaves it ahead of its group. -/
theorem Operation.perform_ahead {x : Session σ} (hw : x.client.Wired) (now : Timestamp)
    (op : Operation σ)
    (h : Ahead x.broker x.client.connection.identity.group x.client.connection.positions) :
    Ahead (op.perform now x).broker x.client.connection.identity.group
      (op.perform now x).client.connection.positions := by
  have heffect := op.perform_effect hw now
  have hbroker := op.perform_broker hw now
  intro a p hp
  -- the new position lies behind the old one, which is all that can have been committed
  have hmoved : (x.broker.committedOffset x.client.connection.identity.group a).getD 0 ≤ p ∧
      ∀ q, x.client.connection.positions.get? a = some q → q ≤ p := by
    rcases heffect.positions with ⟨-, hsame | ⟨-, hempty⟩⟩ | ⟨-, hprogress⟩
    · rw [hsame] at hp
      exact ⟨h a p hp, fun q hq => Nat.le_of_eq (Option.some.inj (hq.symm.trans hp))⟩
    · rw [hempty] at hp
      cases hp
    · cases hstart : (x.client.synced x.broker).connection.positions.get? a with
      | none =>
        rw [(hprogress.untracked a hstart).2] at hp
        cases hp
      | some start =>
        obtain ⟨-, hafter⟩ := hprogress.tracked a start hstart
        obtain rfl : start + _ = p := Option.some.inj (hafter.symm.trans hp)
        refine ⟨Nat.le_add_right_of_le (h.synced a start hstart), fun q hq => ?_⟩
        rw [Client.get?_synced, hq, Option.some_or] at hstart
        rw [← Option.some.inj hstart]
        exact Nat.le_add_right ..
  rcases hbroker.committed x.client.connection.identity.group a with hsame | ⟨-, q, hq, hnew⟩
  · rw [hsame]
    exact hmoved.1
  · rw [hnew]
    exact hmoved.2 q hq

namespace Bus

variable {b : Bus σ} {i : Nat} {group : String}

/-- There is no other member of a group. -/
def Alone (b : Bus σ) (i : Nat) (group : String) : Prop :=
  ∀ (j : Nat) m, b.members[j]? = some m → m.group = group → j = i

theorem Alone.of_evolves {b' : Bus σ} (h : b'.Alone i group) (hevolves : b.Evolves b') :
    b.Alone i group := by
  intro j m hm hgroup
  obtain ⟨m', hm', hcontinues⟩ := hevolves.member j m hm
  exact h j m' hm' (hcontinues.group.trans hgroup)

/-- The only member of a group is not behind it. -/
def AheadAlone (b : Bus σ) (i : Nat) (group : String) : Prop :=
  ∀ m, b.members[i]? = some m → m.group = group →
    Ahead b.broker group m.client.connection.positions

theorem AheadAlone.apply (h : b.AheadAlone i group) (hs : b.Sound) (action : Action σ)
    (halone : (b.apply action).Alone i group) : (b.apply action).AheadAlone i group := by
  intro m' hm' hgroup'
  cases action with
  | append address payload => exact h m' hm' hgroup'
  | connect identity provenance itinerary =>
    have hlist : (b.members ++ [_])[i]? = some m' := hm'
    rcases List.mem_append.mp (List.mem_of_getElem? hlist) with hold | hnew
    · obtain ⟨j, hj⟩ := List.mem_iff_getElem?.mp hold
      obtain ⟨hlt, -⟩ := List.getElem?_eq_some_iff.mp hj
      have hi : j = i := halone j m' ((List.getElem?_append_left hlt).trans hj) hgroup'
      exact h m' (hi ▸ hj) hgroup'
    · rw [List.mem_singleton.mp hnew]
      intro a p hp
      cases hp
  | outage j outage =>
    cases hm : b.members[j]? with
    | none => simp only [Bus.apply, hm] at hm' ⊢; exact h m' hm' hgroup'
    | some m =>
      simp only [Bus.apply, hm, List.getElem?_set] at hm' ⊢
      split at hm'
      · rename_i hij
        subst hij
        split at hm'
        · obtain rfl := Option.some.inj hm'
          exact h m hm hgroup'
        · cases hm'
      · exact h m' hm' hgroup'
  | ask j now op =>
    cases hm : b.members[j]? with
    | none => simp only [Bus.apply, hm] at hm' ⊢; exact h m' hm' hgroup'
    | some m =>
      have hsound := hs.member m (List.mem_of_getElem? hm)
      have hwired := hsound.wired
      have hafter := hsound.group_after b.broker b.state now op
      have hasked := getElem?_ask hm now op
      by_cases hij : j = i
      · subst hij
        obtain rfl := Option.some.inj (hasked.symm.trans hm')
        obtain rfl : m.group = group := hafter.symm.trans hgroup'
        simp only [Bus.apply, hm]
        exact op.perform_ahead (x := m.session b.broker b.state) hwired now (h m hm rfl)
      · -- the member that acts is of another group, so it cannot commit for this one
        have hother : m.group ≠ group := fun hsame =>
          hij (halone j _ hasked (hafter.trans hsame))
        simp only [Bus.apply, hm, List.getElem?_set, if_neg hij] at hm' ⊢
        intro a p hp
        rcases (op.perform_broker (x := m.session b.broker b.state) hwired now).committed
          group a with hsame | ⟨hown, -⟩
        · rw [hsame]
          exact h m' hm' hgroup' a p hp
        · exact absurd hown.symm hother

/-- **The only member of a group is never behind what the group has committed.** -/
theorem run_ahead (hs : b.Sound) (h : b.AheadAlone i group) (actions : List (Action σ))
    (halone : (b.run actions).Alone i group) : (b.run actions).AheadAlone i group := by
  induction actions generalizing b with
  | nil => exact h
  | cons action rest ih =>
    have hs' := (b.step_apply action).sound hs
    exact ih hs' (h.apply hs action (halone.of_evolves (run_evolves hs' rest))) halone

end Bus
end LaneBus
