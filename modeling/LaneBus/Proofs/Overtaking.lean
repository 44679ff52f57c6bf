import LaneBus.Proofs.Runs

/-! # Members that have been overtaken

A commit writes the position of a member, wherever that lies.  While several
members of a group read the same address, one of them can fall behind what another
has committed, and its next commit takes the progress of the group back.  This is
the only way in which committed progress is ever lost
(`Bus.committed_apply_lt_iff`), and it takes a second member that has already
handled the record at the position that is written (`Bus.Overtaken.exists_ahead`):
members that do not overlap lose nothing.

So a run keeps all that is committed exactly when no overtaken member commits in
it, and then a member that starts to read after a commit is not handed what the
commit has covered (`Bus.run_kept_iff`).  The last statement is a run in which
progress is lost (`Bus.overtaken_commit`).
-/
namespace LaneBus

open Json

namespace InOrder

/-- Nothing is attempted before the start. -/
theorem start_le {start : Nat} {ts : List Attempt} (h : InOrder start ts) {t : Attempt}
    (ht : t ∈ ts) : start ≤ t.record.offset := by
  induction ts generalizing start with
  | nil => cases ht
  | cons t' rest ih =>
    obtain ⟨hoffset, hrest⟩ := h
    rcases List.mem_cons.mp ht with rfl | ht
    · exact Nat.le_of_eq hoffset.symm
    · refine Nat.le_trans ?_ (ih hrest ht)
      split <;> omega

end InOrder

namespace Bus

variable {σ : Type} {b : Bus σ} {group a : String} {action : Action σ}

/-- The offset up to which a group has committed an address. -/
def committed (b : Bus σ) (group a : String) : Nat := (b.broker.committedOffset group a).getD 0

/-- The action is a commit by a member of the group that stands before what the group
has committed. -/
inductive Overtaken (b : Bus σ) (group a : String) : Action σ → Prop where
  | intro (i : Nat) (m : Member σ) (now : Timestamp) (p : Nat) (hm : b.members[i]? = some m)
      (hgroup : m.group = group) (hcommits : (m.session b.broker b.state).Commits)
      (hp : m.position? a = some p) (hlt : p < b.committed group a) :
    Overtaken b group a (.ask i now .commit)

/-- What a group has committed after a member has been asked to commit. -/
theorem committed_commit (hs : b.Sound) {i : Nat} {m : Member σ} (hm : b.members[i]? = some m)
    (now : Timestamp) : (b.apply (.ask i now .commit)).committed group a =
      if (m.session b.broker b.state).Commits ∧ group = m.group then
        (m.position? a).getD (b.committed group a)
      else b.committed group a := by
  have hw := (hs.member m (List.mem_of_getElem? hm)).wired
  obtain ⟨-, hcommitted⟩ := Session.commit_eq (x := m.session b.broker b.state) hw
  have hbroker : (b.apply (.ask i now .commit)).broker =
      (m.session b.broker b.state).commit.2.broker := by
    simp only [apply, hm]
    rfl
  have hbound : (m.session b.broker b.state).commit.2.broker.committedOffset group a =
      if (m.session b.broker b.state).Commits ∧ group = m.group then
        (m.position? a).or (b.broker.committedOffset group a)
      else b.broker.committedOffset group a := hcommitted group a
  rw [committed, hbroker, hbound]
  split
  · cases m.position? a <;> rfl
  · rfl

/-- **Only an overtaken member takes progress back.** -/
theorem committed_apply_lt_iff (hs : b.Sound) :
    (b.apply action).committed group a < b.committed group a ↔ b.Overtaken group a action := by
  constructor
  · intro hlt
    have hsame : (b.apply action).broker.committed ≠ b.broker.committed := fun h => by
      rw [committed, Broker.committedOffset, h] at hlt
      exact Nat.lt_irrefl _ hlt
    cases action with
    | append address payload => exact absurd rfl hsame
    | connect identity provenance itinerary =>
      refine absurd ?_ hsame
      simp only [apply]
      split <;> rfl
    | outage i outage =>
      refine absurd ?_ hsame
      simp only [apply]
      split <;> rfl
    | ask i now op =>
      cases hm : b.members[i]? with
      | none => exact absurd (by simp only [apply, hm]) hsame
      | some m =>
        have hw := (hs.member m (List.mem_of_getElem? hm)).wired
        cases hop : op.isCommit with
        | false =>
          have hgrows := Operation.perform_grows (x := m.session b.broker b.state) hw now hop
          exact absurd (by simp only [apply, hm]; exact hgrows.committed) hsame
        | true =>
          cases op with
          | commit =>
            rw [committed_commit hs hm] at hlt
            split at hlt
            · rename_i h
              cases hp : m.position? a with
              | none => rw [hp] at hlt; exact absurd hlt (Nat.lt_irrefl _)
              | some p =>
                rw [hp] at hlt
                exact .intro i m now p hm h.2.symm h.1 hp hlt
            · exact absurd hlt (Nat.lt_irrefl _)
          | _ => cases hop
  · rintro ⟨i, m, now, p, hm, rfl, hcommits, hp, hlt⟩
    rw [committed_commit hs hm, if_pos ⟨hcommits, rfl⟩, hp]
    exact hlt

/-- **It takes two to lose progress**: the record at the position of an overtaken member
was handled by another member of its group. -/
theorem Overtaken.exists_ahead (hs : b.Sound) (hc : b.Covered) {i : Nat} {now : Timestamp}
    {op : Operation σ} (h : b.Overtaken group a (.ask i now op)) :
    ∃ j m', j ≠ i ∧ b.members[j]? = some m' ∧ m'.group = group ∧
      ∃ m t, b.members[i]? = some m ∧ t ∈ m'.journal ∧ t.completed = true ∧
        t.record.address = a ∧ m.position? a = some t.record.offset := by
  cases h with
  | intro _ m _ p hm hgroup hcommits hp hlt =>
    obtain ⟨m', hm', hgroup', t, ht, hcompleted, haddress, hoffset, -⟩ :=
      hc.committed group a p hlt
    obtain ⟨j, hj⟩ := List.mem_iff_getElem?.mp hm'
    refine ⟨j, m', ?_, hj, hgroup', m, t, hm, ht, hcompleted, haddress, hoffset ▸ hp⟩
    -- the overtaken member has completed nothing at its own position
    rintro rfl
    obtain rfl : m = m' := Option.some.inj (hm.symm.trans hj)
    cases (hs.member m hm').standing a with
    | unread _ hnone _ => rw [hp] at hnone; cases hnone
    | closed _ _ hnone _ _ => rw [hp] at hnone; cases hnone
    | reading start hstart hpos hin =>
      have hmem : p ∈ List.range' start (completedCount (attemptsAt a m.journal)) := by
        rw [← hin.offsets, ← hoffset]
        refine List.mem_map.mpr ⟨t, List.mem_filter.mpr ⟨?_, hcompleted⟩, rfl⟩
        exact List.mem_filter.mpr ⟨ht, decide_eq_true haddress⟩
      obtain rfl : p = _ := Option.some.inj (hp.symm.trans hpos)
      exact absurd (List.mem_range'_1.mp hmem).2 (Nat.lt_irrefl _)

/-! ## Along a run -/

/-- Members of a group that have started to read an address since there were the members
`before` start from an offset `k` on, and so will those that are still to come. -/
structure StartFrom (before : List (Member σ)) (group a : String) (k : Nat) (b : Bus σ) :
    Prop where
  committed : k ≤ b.committed group a
  started : ∀ (i : Nat) m, b.members[i]? = some m → m.group = group →
    (∀ m₀, before[i]? = some m₀ → m₀.started a = none) →
      ∀ start, m.started a = some start → k ≤ start

theorem startFrom_self (b : Bus σ) (group a : String) :
    StartFrom b.members group a (b.committed group a) b where
  committed := Nat.le_refl _
  started i m hm _ hnew start hstart := by
    rw [hnew m hm] at hstart
    cases hstart

theorem StartFrom.apply {before : List (Member σ)} {k : Nat} (h : StartFrom before group a k b)
    (hs : b.Sound) (hkept : ¬b.Overtaken group a action) :
    StartFrom before group a k (b.apply action) := by
  rw [← committed_apply_lt_iff hs, Nat.not_lt] at hkept
  refine ⟨Nat.le_trans h.committed hkept, ?_⟩
  have hstep := b.step_apply action
  generalize b.apply action = b' at hstep
  intro j n hn hgroup hnew start hstart
  cases hstep with
  | idle => exact h.started j n hn hgroup hnew start hstart
  | appended address payload => exact h.started j n hn hgroup hnew start hstart
  | connected client identity provenance itinerary hconnect =>
    rw [List.getElem?_append] at hn
    split at hn
    · exact h.started j n hn hgroup hnew start hstart
    · obtain rfl := List.mem_singleton.mp (List.mem_of_getElem? hn)
      cases hstart
  | down i m outage hm =>
    rw [List.getElem?_set] at hn
    split at hn
    · rename_i hij
      subst hij
      split at hn
      · obtain rfl := Option.some.inj hn
        exact h.started i m hm hgroup hnew start hstart
      · cases hn
    · exact h.started j n hn hgroup hnew start hstart
  | asked i m now op hm =>
    rw [List.getElem?_set] at hn
    split at hn
    · rename_i hij
      subst hij
      split at hn
      · obtain rfl := Option.some.inj hn
        rw [(hs.member m (List.mem_of_getElem? hm)).group_after b.broker b.state now op] at hgroup
        -- a start that is new is what the group had committed
        rcases m.started_after b.broker b.state now op a with hfresh | hold
        · obtain rfl : _ = start := Option.some.inj (hfresh.symm.trans hstart)
          rw [hgroup]
          exact h.committed
        · exact h.started i m hm hgroup hnew start (hold ▸ hstart)
      · cases hn
    · exact h.started j n hn hgroup hnew start hstart

theorem StartFrom.run {before : List (Member σ)} {k : Nat} (h : StartFrom before group a k b)
    (hs : b.Sound) {actions : List (Action σ)}
    (hkept : b.Along (fun b action => ¬b.Overtaken group a action) actions) :
    StartFrom before group a k (b.run actions) := by
  induction actions generalizing b with
  | nil => exact h
  | cons action rest ih =>
    obtain ⟨hfirst, hrest⟩ := hkept
    exact ih (h.apply hs hfirst) ((b.step_apply action).sound hs) hrest

/-- **What keeps committed progress.**  From any state that a run has reached, the rest of
the run never takes back what a group has committed at an address exactly when no
overtaken member of the group commits in it.  In that case a member of the group that
starts to read the address in the rest of the run is handed nothing of what had been
committed before.  And a member that is overtaken has another member of its group ahead of
it, which has handled the record at its position. -/
theorem run_kept_iff (state : σ) (earlier later : List (Action σ)) (group a : String) :
    ((run { state } earlier).Along
        (fun b action => b.committed group a ≤ (b.apply action).committed group a) later ↔
      (run { state } earlier).Along (fun b action => ¬b.Overtaken group a action) later) ∧
    ((run { state } earlier).Along (fun b action => ¬b.Overtaken group a action) later →
      ∀ (i : Nat) m, ((run { state } earlier).run later).members[i]? = some m →
        m.group = group →
        (∀ m₀, (run { state } earlier).members[i]? = some m₀ → m₀.started a = none) →
          ∀ t ∈ attemptsAt a m.journal,
            (run { state } earlier).committed group a ≤ t.record.offset) ∧
    ∀ i now op, (run { state } earlier).Overtaken group a (.ask i now op) →
      ∃ j m', j ≠ i ∧ (run { state } earlier).members[j]? = some m' ∧ m'.group = group ∧
        ∃ m t, (run { state } earlier).members[i]? = some m ∧ t ∈ m'.journal ∧
          t.completed = true ∧ t.record.address = a ∧ m.position? a = some t.record.offset := by
  have hs : (run { state } earlier).Sound := run_sound (sound_of_no_members {} state) earlier
  have hc : (run { state } earlier).Covered :=
    run_covered (sound_of_no_members {} state) (covered_of_new state) earlier
  refine ⟨?_, fun hkept i m hm hgroup hnew t ht => ?_, fun i now op h => h.exists_ahead hs hc⟩
  · refine Along.congr (fun b hb action => ?_) hs later
    rw [← committed_apply_lt_iff hb, Nat.not_lt]
  · have hsound := (run_sound hs later).member m (List.mem_of_getElem? hm)
    have hstart := (startFrom_self (run { state } earlier) group a).run hs hkept
    cases hs' : m.started a with
    | none => rw [hsound.attemptsAt_eq_nil hs'] at ht; cases ht
    | some start =>
      exact Nat.le_trans (hstart.started i m hm hgroup hnew start hs')
        ((hsound.inOrder hs').start_le ht)

/-- **Progress is lost** when a member that has handled nothing commits after another: what
the other has committed is taken back, and a third member is handed it again. -/
theorem overtaken_commit :
    let now : Timestamp := ⟨2024, 1, 1, 0, 0, 0, 0⟩
    let connect : Action Unit :=
      .connect { url := "memory://b", group := "g", client := "c" }
        { plugin := "p", version := "1", host := "h" } ⟨id, fun _ => .refl _⟩
    let subscribe : Operation Unit :=
      .subscribe "t" fun (_ : Envelope Value Value) _ outbox state => (.done, outbox, state)
    let b := run { state := () } [
      connect, connect, .ask 0 now subscribe, .ask 1 now subscribe, .ask 0 now .poll,
      .append "t-NORMAL" "\x7b\"created_at\":\"2024-01-01T00:00:00Z\"\x7d",
      .ask 1 now .poll, .ask 1 now .commit]
    let later := b.apply (.ask 0 now .commit)
    b.committed "g" "t-NORMAL" = 1 ∧ later.committed "g" "t-NORMAL" = 0 ∧
      ∃ m, (later.run [connect, .ask 2 now subscribe, .ask 2 now .poll]).members[2]? = some m ∧
        m.group = "g" ∧ (attemptsAt "t-NORMAL" m.journal).map (·.record.offset) = [0] := by
  refine ⟨by rfl, by rfl, _, rfl, by rfl, by rfl⟩
end Bus
end LaneBus
