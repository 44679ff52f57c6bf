import LaneBus.Proofs.Runs

/-! # Histories

What a member has done in a run can be noted from outside: something is written down for every
operation that the member is asked for, and nothing for what others do (`Bus.history`).  A
property of a member and what was noted of it holds in every run when it holds of a member that
has just connected, is not touched by calls that go down, and is kept by every operation
(`Bus.Kept`, `Bus.run_kept`).
-/
namespace LaneBus
namespace Bus

variable {σ η : Type}

/-- What is noted of a member after an action. -/
def noted (note : η → Session σ → Timestamp → Operation σ → η) (b : Bus σ) (i : Nat) (h : η) :
    Action σ → η
  | .ask j now op =>
    match b.members[j]? with
    | none => h
    | some m => if j = i then note h (m.session b.broker b.state) now op else h
  | _ => h

/-- What is noted of a member after some actions. -/
def history (note : η → Session σ → Timestamp → Operation σ → η) (b : Bus σ) (i : Nat) (h : η) :
    List (Action σ) → η
  | [] => h
  | action :: rest => (b.apply action).history note i (b.noted note i h action) rest

/-- A property of members and what was noted of them that no action can break. -/
structure Kept (note : η → Session σ → Timestamp → Operation σ → η) (blank : η)
    (P : Member σ → η → Prop) : Prop where
  connected : ∀ c : Client σ, c.subscriptions = [] → c.routes = .empty → c.unsynced = [] →
    c.connection.positions = .empty → P { client := c } blank
  down : ∀ m h outage, P m h → P (m.withOutage outage) h
  asked : ∀ (m : Member σ) h b state now op, m.Sound → P m h →
    P (m.after b state now op) (note h (m.session b state) now op)

/-- The member of a number has a property together with what was noted of it; nothing was noted
while there is no such member. -/
structure Follows (blank : η) (P : Member σ → η → Prop) (b : Bus σ) (i : Nat) (h : η) : Prop where
  member : ∀ m, b.members[i]? = some m → P m h
  absent : b.members[i]? = none → h = blank

variable {note : η → Session σ → Timestamp → Operation σ → η} {blank h : η}
  {P : Member σ → η → Prop} {b : Bus σ} {i : Nat}

/-- What is done to another member does not matter. -/
theorem Follows.set_of_ne {members : List (Member σ)} (hf : b.Follows blank P i h) {j : Nat}
    {m : Member σ} (hij : j ≠ i) (hmembers : members = b.members.set j m) (broker : Broker)
    (state : σ) : ({ broker, state, members } : Bus σ).Follows blank P i h := by
  have hsame : members[i]? = b.members[i]? := by
    rw [hmembers, List.getElem?_set, if_neg hij]
  exact ⟨fun m hm => hf.member m (hsame ▸ hm), fun hnone => hf.absent (hsame ▸ hnone)⟩

/-- What is done to the member itself decides. -/
theorem Follows.set_self {members : List (Member σ)} {m m' : Member σ}
    (hm : b.members[i]? = some m) (hmembers : members = b.members.set i m') (hP : P m' h)
    (broker : Broker) (state : σ) :
    ({ broker, state, members } : Bus σ).Follows blank P i h := by
  obtain ⟨hlt, -⟩ := List.getElem?_eq_some_iff.mp hm
  have hself : members[i]? = some m' := by
    rw [hmembers, List.getElem?_set, if_pos rfl, if_pos hlt]
  refine ⟨fun n hn => ?_, fun hnone => ?_⟩
  · obtain rfl : m' = n := Option.some.inj (hself.symm.trans hn)
    exact hP
  · rw [hself] at hnone
    cases hnone

theorem Follows.apply (hk : Kept note blank P) (hf : b.Follows blank P i h) (hs : b.Sound)
    (action : Action σ) : (b.apply action).Follows blank P i (b.noted note i h action) := by
  cases action with
  | append address payload => exact ⟨hf.member, hf.absent⟩
  | connect identity provenance itinerary =>
    refine ⟨fun m hm => ?_, fun hnone => ?_⟩
    · change P m h
      rcases Nat.lt_trichotomy i b.members.length with hlt | heq | hgt
      · exact hf.member m ((List.getElem?_append_left hlt).symm.trans hm)
      · have hblank : h = blank := hf.absent (List.getElem?_eq_none (Nat.le_of_eq heq.symm))
        have hnew := (List.getElem?_concat_length (l := b.members)).symm.trans (heq ▸ hm)
        rw [hblank, ← Option.some.inj hnew]
        exact hk.connected _ rfl rfl rfl rfl
      · have hm' : (b.members ++ [_])[i]? = some m := hm
        rw [List.getElem?_eq_none (by simp; omega)] at hm'
        cases hm'
    · refine hf.absent (List.getElem?_eq_none ?_)
      have hlength : (b.members ++ [_]).length ≤ i := List.getElem?_eq_none_iff.mp hnone
      rw [List.length_append] at hlength
      omega
  | outage j outage =>
    cases hm : b.members[j]? with
    | none => simp only [Bus.apply, noted, hm]; exact hf
    | some m =>
      simp only [Bus.apply, noted, hm]
      by_cases hij : j = i
      · subst hij
        exact .set_self hm rfl (hk.down m h outage (hf.member m hm)) ..
      · exact hf.set_of_ne hij rfl ..
  | ask j now op =>
    cases hm : b.members[j]? with
    | none => simp only [Bus.apply, noted, hm]; exact hf
    | some m =>
      simp only [Bus.apply, noted, hm]
      by_cases hij : j = i
      · subst hij
        rw [if_pos rfl]
        exact .set_self hm rfl (hk.asked m h b.broker b.state now op
          (hs.member m (List.mem_of_getElem? hm)) (hf.member m hm)) ..
      · rw [if_neg hij]
        exact hf.set_of_ne hij rfl ..

theorem Follows.run (hk : Kept note blank P) (hf : b.Follows blank P i h) (hs : b.Sound)
    (actions : List (Action σ)) :
    (b.run actions).Follows blank P i (b.history note i h actions) := by
  induction actions generalizing b h with
  | nil => exact hf
  | cons action rest ih => exact ih (hf.apply hk hs action) ((b.step_apply action).sound hs)

/-- **What every operation keeps holds after every run**, of each member and what was noted of
it. -/
theorem run_kept (hk : Kept note blank P) (broker : Broker) (state : σ)
    (actions : List (Action σ)) {m : Member σ}
    (hm : (run { broker, state } actions).members[i]? = some m) :
    P m (history note { broker, state } i blank actions) := by
  have hnone : ({ broker, state } : Bus σ).Follows blank P i blank :=
    ⟨fun m hm => (by cases hm), fun _ => rfl⟩
  exact (hnone.run hk (sound_of_no_members broker state) actions).member m hm

end Bus
end LaneBus
