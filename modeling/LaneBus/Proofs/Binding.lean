import LaneBus.Options.Binder
import Mathlib.Data.List.Pairwise

/-! # Bundles that clash

Two bundles clash when a command line could not tell them apart: they share a long
name, a short name or the id of an argument, or the id of a group is found in both, be
it as a group or as an argument (`Bundle.Shares`).  The check that a binder makes looks
at one pair of arguments after the other and at the groups only in the end; it decides
this symmetric relation (`Bundle.collision?_eq_none`), and what it reports is a name
that is really shared (`Bundle.shares_of_collision?`).

So a binder never holds two bundles that clash, and it refuses a bundle exactly when it
clashes with one that is bound.  Whether some bundles can all be bound does not depend on
the order, since it only takes that no two of them clash
(`Binder.exists_bindAll_iff`).  All of this is `Binder.binds_apart`.
-/
namespace LaneBus

/-! ## What is shared -/

/-- A name that two arguments share, as it is shown. -/
inductive Arg.Shares (a a' : Arg) : String → Prop where
  | long (name : String) (h : a.long = some name) (h' : a'.long = some name) :
    Shares a a' ("--" ++ name)
  | short (c : Char) (h : a.short = some c) (h' : a'.short = some c) :
    Shares a a' ("-" ++ c.toString)
  | id (h : a.id = a'.id) : Shares a a' ("argument id `" ++ a.id ++ "`")

/-- A name that two bundles share, as it is shown. -/
inductive Bundle.Shares (b b' : Bundle) : String → Prop where
  | arg (a a' : Arg) (shown : String) (ha : a ∈ b.args) (ha' : a' ∈ b'.args)
    (h : a.Shares a' shown) : Shares b b' shown
  | group (g : String) (h : b.group = some g) (h' : b'.group = some g) :
    Shares b b' ("argument group `" ++ g ++ "`")
  | taken (g : String) (a' : Arg) (h : b.group = some g) (ha' : a' ∈ b'.args) (h' : a'.id = g) :
    Shares b b' ("argument group `" ++ g ++ "`")
  | takes (g : String) (a : Arg) (ha : a ∈ b.args) (h : a.id = g) (h' : b'.group = some g) :
    Shares b b' ("argument group `" ++ g ++ "`")

/-- Two bundles share some name. -/
def Bundle.Clashes (b b' : Bundle) : Prop := ∃ shown, b.Shares b' shown

theorem Arg.Shares.symm {a a' : Arg} {shown : String} (h : a.Shares a' shown) :
    a'.Shares a shown := by
  cases h with
  | long name h h' => exact .long name h' h
  | short c h h' => exact .short c h' h
  | id h => exact h ▸ .id h.symm

theorem Bundle.Shares.symm {b b' : Bundle} {shown : String} (h : b.Shares b' shown) :
    b'.Shares b shown := by
  cases h with
  | arg a a' shown ha ha' h => exact .arg a' a shown ha' ha h.symm
  | group g h h' => exact .group g h' h
  | taken g a' h ha' h' => exact .takes g a' ha' h' h
  | takes g a ha h h' => exact .taken g a h' ha h

theorem Bundle.Clashes.symm {b b' : Bundle} (h : b.Clashes b') : b'.Clashes b := by
  obtain ⟨shown, hshared⟩ := h
  exact ⟨shown, hshared.symm⟩

/-! ## What the check finds -/

namespace Arg

variable {a a' : Arg} {shown : String}

/-- What is reported of two arguments is shared. -/
theorem shares_of_collision? (h : a.collision? a' = some shown) : a.Shares a' shown := by
  unfold collision? at h
  split at h
  · rename_i hlong
    obtain ⟨-, hsame⟩ := Bool.and_eq_true_iff.mp hlong
    obtain ⟨name, hname, rfl⟩ := Option.map_eq_some_iff.mp h
    exact .long name hname (eq_of_beq hsame ▸ hname)
  · split at h
    · rename_i hshort
      obtain ⟨-, hsame⟩ := Bool.and_eq_true_iff.mp hshort
      obtain ⟨c, hc, rfl⟩ := Option.map_eq_some_iff.mp h
      exact .short c hc (eq_of_beq hsame ▸ hc)
    · split at h
      · rename_i hid
        obtain rfl := Option.some.inj h
        exact .id hid
      · cases h

/-- Whatever two arguments share, something is reported. -/
theorem isSome_collision? (h : a.Shares a' shown) : (a.collision? a').isSome := by
  unfold collision?
  split
  · rename_i hlong
    simpa using (Bool.and_eq_true_iff.mp hlong).1
  · rename_i hlong
    split
    · rename_i hshort
      simpa using (Bool.and_eq_true_iff.mp hshort).1
    · rename_i hshort
      cases h with
      | long name h h' => simp [h, h'] at hlong
      | short c h h' => simp [h, h'] at hshort
      | id h => simp [h]

end Arg

namespace Bundle

variable {b other : Bundle} {shown group : String}

theorem groupTakenBy_eq_some :
    b.groupTakenBy other = some group ↔ b.group = some group ∧ ∃ a ∈ other.args, a.id = group := by
  simp [groupTakenBy, Option.filter_eq_some_iff]

/-- What is reported of two bundles is shared. -/
theorem shares_of_collision? (h : b.collision? other = some shown) : b.Shares other shown := by
  unfold collision? at h
  split at h
  · rename_i flag hfind
    obtain rfl := Option.some.inj h
    obtain ⟨a, ha, hfind⟩ := List.exists_of_findSome?_eq_some hfind
    obtain ⟨a', ha', hflag⟩ := List.exists_of_findSome?_eq_some hfind
    exact .arg a a' _ ha ha' (Arg.shares_of_collision? hflag)
  · obtain ⟨g, hg, rfl⟩ := Option.map_eq_some_iff.mp h
    split at hg
    · rename_i hsame
      obtain ⟨-, hsame⟩ := Bool.and_eq_true_iff.mp hsame
      exact .group g hg (eq_of_beq hsame ▸ hg)
    · cases htaken : b.groupTakenBy other with
      | some g' =>
        obtain rfl : g' = g := by simpa [htaken] using hg
        obtain ⟨hgroup, a', ha', hid⟩ := groupTakenBy_eq_some.mp htaken
        exact .taken g' a' hgroup ha' hid
      | none =>
        obtain ⟨hgroup, a, ha, hid⟩ := groupTakenBy_eq_some.mp (by simpa [htaken] using hg)
        exact .takes g a ha hid hgroup

/-- Whatever two bundles share, something is reported. -/
theorem isSome_collision? (h : b.Shares other shown) : (b.collision? other).isSome := by
  unfold collision?
  split
  · rfl
  · rename_i hfind
    rw [Option.isSome_map]
    -- no pair of arguments is left that could share anything, so it is a matter of groups
    cases h with
    | arg a a' shown ha ha' h =>
      have hnone := List.findSome?_eq_none_iff.mp (List.findSome?_eq_none_iff.mp hfind a ha) a' ha'
      have hsome := Arg.isSome_collision? h
      rw [hnone] at hsome
      cases hsome
    | group g h h' => simp [h, h']
    | taken g a' h ha' h' =>
      have htaken : b.groupTakenBy other = some g := groupTakenBy_eq_some.mpr ⟨h, a', ha', h'⟩
      split
      · simp [h]
      · simp [htaken]
    | takes g a ha h h' =>
      have htakes : other.groupTakenBy b = some g := groupTakenBy_eq_some.mpr ⟨h', a, ha, h⟩
      split
      · rename_i hsame
        exact (Bool.and_eq_true_iff.mp hsame).1
      · cases b.groupTakenBy other <;> simp [htakes]

/-- **The check decides** whether two bundles clash. -/
theorem collision?_eq_none : b.collision? other = none ↔ ¬b.Clashes other := by
  constructor
  · rintro hnone ⟨shown, hshared⟩
    have hsome := isSome_collision? hshared
    rw [hnone] at hsome
    cases hsome
  · intro hfree
    cases hfound : b.collision? other with
    | none => rfl
    | some shown => exact absurd ⟨shown, shares_of_collision? hfound⟩ hfree

end Bundle

/-! ## Binding -/

/-- The help of two bundles, one after the other. -/
def Binder.usageApart (x : Binder) (b b' : Bundle) : String :=
  Text.join "\n" [usageText x.program x.env [b], usageText x.program x.env [b']]

/-- Two bundles are not the same one and share nothing. -/
def Bundle.Disjoint (b b' : Bundle) : Prop := b.key ≠ b'.key ∧ ¬b.Clashes b'

instance : Std.Symm Bundle.Disjoint :=
  ⟨fun _ _ h => ⟨h.1.symm, fun hclash => h.2 hclash.symm⟩⟩

/-- Bundles of which no two distinct ones clash. -/
def Bundle.Compatible (bundles : List Bundle) : Prop :=
  ∀ b ∈ bundles, ∀ b' ∈ bundles, b.key ≠ b'.key → ¬b.Clashes b'

/-- Bundles that their keys tell apart. -/
def Bundle.ToldApart (bundles : List Bundle) : Prop :=
  ∀ b ∈ bundles, ∀ b' ∈ bundles, b.key = b'.key → b = b'

namespace Binder

variable {x : Binder} {b : Bundle}

theorem isBound_iff : x.isBound b = true ↔ ∃ bound ∈ x.bundles, bound.key = b.key := by
  simp [isBound]

/-- **All that binding can do.**  A bundle that is bound stays; one that clashes with
none that is bound is added; and one that clashes is refused because of the first that it
clashes with. -/
inductive BindCase (x : Binder) (b : Bundle) : Except BindError Binder → Prop where
  | again (h : x.isBound b = true) : BindCase x b (.ok x)
  | added (h : x.isBound b = false) (hfree : ∀ bound ∈ x.bundles, ¬bound.Clashes b) :
    BindCase x b (.ok { x with bundles := x.bundles ++ [b] })
  | refused (before after : List Bundle) (bound : Bundle) (shown : String)
    (h : x.isBound b = false) (hbundles : x.bundles = before ++ bound :: after)
    (hfirst : ∀ b' ∈ before, ¬b'.Clashes b) (hshared : bound.Shares b shown) :
    BindCase x b (.error (.duplicateFlag shown bound.name b.name (x.usageApart bound b)))

theorem bind_cases (x : Binder) (b : Bundle) : x.BindCase b (x.bind b) := by
  unfold bind
  split
  · rename_i hbound
    exact .again hbound
  · rename_i hbound
    rw [Bool.not_eq_true] at hbound
    split
    · rename_i hnone
      refine .added hbound fun bound hmem => ?_
      rw [← Bundle.collision?_eq_none]
      simpa using List.findSome?_eq_none_iff.mp hnone bound hmem
    · rename_i bound flag hfound
      obtain ⟨before, b', after, hbundles, hflag, hfirst⟩ := List.findSome?_eq_some_iff.mp hfound
      obtain ⟨flag', hcollision, heq⟩ := Option.map_eq_some_iff.mp hflag
      cases heq
      refine .refused before after bound flag hbound hbundles (fun b'' hmem => ?_)
        (Bundle.shares_of_collision? hcollision)
      rw [← Bundle.collision?_eq_none]
      simpa using hfirst b'' hmem

/-- The binder after a call that may have been refused. -/
def attempt (x : Binder) (b : Bundle) : Binder :=
  match x.bind b with
  | .error _ => x
  | .ok y => y

/-- The binder after some calls. -/
def attemptAll (x : Binder) (calls : List Bundle) : Binder := calls.foldl attempt x

/-- Each bundle is bound once, and no two of them clash. -/
def Apart (x : Binder) : Prop := x.bundles.Pairwise Bundle.Disjoint

theorem Apart.bind {y : Binder} (h : x.Apart) (hbind : x.bind b = .ok y) : y.Apart := by
  have hcases := x.bind_cases b
  rw [hbind] at hcases
  cases hcases with
  | again _ => exact h
  | added hbound hfree =>
    refine List.pairwise_append.mpr ⟨h, List.pairwise_singleton .., fun bound hmem b' hb' => ?_⟩
    obtain rfl := List.mem_singleton.mp hb'
    refine ⟨fun hkey => ?_, hfree bound hmem⟩
    rw [isBound_iff.mpr ⟨bound, hmem, hkey⟩] at hbound
    cases hbound

theorem Apart.attemptAll (h : x.Apart) (calls : List Bundle) : (x.attemptAll calls).Apart := by
  induction calls generalizing x with
  | nil => exact h
  | cons b rest ih =>
    refine ih ?_
    unfold attempt
    split
    · exact h
    · rename_i y hbind
      exact h.bind hbind

/-- **Bundles can all be bound exactly when no two of them clash.** -/
theorem exists_bindAll_iff {bundles : List Bundle} (hx : Bundle.Compatible x.bundles)
    (htold : Bundle.ToldApart (x.bundles ++ bundles)) :
    (∃ y, x.bindAll bundles = .ok y) ↔ Bundle.Compatible (x.bundles ++ bundles) := by
  induction bundles generalizing x with
  | nil =>
    rw [List.append_nil]
    exact ⟨fun _ => hx, fun _ => ⟨x, rfl⟩⟩
  | cons b rest ih =>
    have hcases := x.bind_cases b
    rw [bindAll]
    generalize x.bind b = outcome at hcases
    cases hcases with
    | again hbound =>
      -- the bundle is one of those that are bound, so it may as well not come again
      obtain ⟨bound, hmem, hkey⟩ := isBound_iff.mp hbound
      obtain rfl := htold bound (List.mem_append_left _ hmem) b (by simp) hkey
      have hsame (c : Bundle) : c ∈ x.bundles ++ bound :: rest ↔ c ∈ x.bundles ++ rest := by
        simp only [List.mem_append, List.mem_cons]
        constructor
        · rintro (hc | rfl | hc)
          · exact .inl hc
          · exact .inl hmem
          · exact .inr hc
        · rintro (hc | hc)
          · exact .inl hc
          · exact .inr (.inr hc)
      simp only [Bundle.ToldApart, Bundle.Compatible, hsame] at htold ⊢
      exact ih hx htold
    | added hbound hfree =>
      have hadded : Bundle.Compatible (x.bundles ++ [b]) := by
        intro c hc c' hc' hkey
        rcases List.mem_append.mp hc with hc | hc <;> rcases List.mem_append.mp hc' with hc' | hc'
        · exact hx c hc c' hc' hkey
        · exact List.mem_singleton.mp hc' ▸ hfree c hc
        · exact fun hclash => hfree c' hc' (List.mem_singleton.mp hc ▸ hclash.symm)
        · rw [List.mem_singleton.mp hc, List.mem_singleton.mp hc'] at hkey
          exact absurd rfl hkey
      have hlist : x.bundles ++ b :: rest = x.bundles ++ [b] ++ rest := List.append_cons ..
      rw [hlist] at htold ⊢
      exact ih (x := { x with bundles := x.bundles ++ [b] }) hadded htold
    | refused before after bound shown hbound hbundles hfirst hshared =>
      have hmem : bound ∈ x.bundles := by simp [hbundles]
      refine ⟨fun ⟨y, hy⟩ => (by cases hy), fun hcompatible => ?_⟩
      refine absurd ⟨shown, hshared⟩ (hcompatible bound (List.mem_append_left _ hmem) b (by simp) ?_)
      intro hkey
      rw [isBound_iff.mpr ⟨bound, hmem, hkey⟩] at hbound
      cases hbound

/-- Two bundles that are called the same are told apart, and each of them is bound once. -/
example :
    let first : Bundle := {
      name := "Opts", key := "first", title := "Opts"
      args := [{ id := "foo", long := some "foo", valueName := "FOO" }] }
    let second : Bundle := {
      name := "Opts", key := "second", title := "Opts"
      args := [{ id := "bar", long := some "bar", valueName := "BAR" }] }
    (({ program := "bus" } : Binder).attemptAll [first, second, first]).names =
      ["Opts", "Opts"] := by
  decide

/-- What holds of a binder after any calls. -/
structure Faithful (x : Binder) : Prop where
  /-- Distinct bundles that are bound share nothing. -/
  apart : x.Apart
  /-- Binding a bundle that is bound changes nothing. -/
  again : ∀ b, x.isBound b = true → x.bind b = .ok x
  /-- Any other bundle is added behind those that are bound, unless it is refused. -/
  added : ∀ b y, x.isBound b = false → x.bind b = .ok y →
    y = { x with bundles := x.bundles ++ [b] }
  /-- It is refused exactly when it clashes with one of them. -/
  refused_iff : ∀ b, x.isBound b = false →
    ((∃ e, x.bind b = .error e) ↔ ∃ bound ∈ x.bundles, bound.Clashes b)
  /-- The complaint names the first of those, the candidate and something they share, and
  the binder stays as it is. -/
  refusal : ∀ b e, x.bind b = .error e → x.attempt b = x ∧
    ∃ before bound after shown, x.bundles = before ++ bound :: after ∧
      (∀ b' ∈ before, ¬b'.Clashes b) ∧ bound.Shares b shown ∧
      e = .duplicateFlag shown bound.name b.name (x.usageApart bound b)

theorem Apart.faithful (h : x.Apart) : x.Faithful where
  apart := h
  again b hbound := if_pos hbound
  added b y hbound hbind := by
    have hcases := x.bind_cases b
    rw [hbind] at hcases
    cases hcases with
    | again h => rw [hbound] at h; cases h
    | added _ _ => rfl
  refused_iff b hbound := by
    have hcases := x.bind_cases b
    generalize x.bind b = outcome at hcases
    cases hcases with
    | again h => rw [hbound] at h; cases h
    | added _ hfree =>
      refine ⟨fun ⟨e, he⟩ => (by cases he), fun ⟨bound, hmem, hclash⟩ => ?_⟩
      exact absurd hclash (hfree bound hmem)
    | refused before after bound shown _ hbundles _ hshared =>
      exact ⟨fun _ => ⟨bound, by simp [hbundles], shown, hshared⟩, fun _ => ⟨_, rfl⟩⟩
  refusal b e hbind := by
    have hcases := x.bind_cases b
    rw [hbind] at hcases
    refine ⟨by rw [attempt, hbind], ?_⟩
    cases hcases with
    | refused before after bound shown _ hbundles hfirst hshared =>
      exact ⟨before, bound, after, shown, hbundles, hfirst, hshared, rfl⟩

/-- **A binder holds bundles that share nothing**, after any calls, and refuses exactly
those that clash with one it holds.  Whether some bundles can all be bound depends neither
on their order nor on how often each comes. -/
theorem binds_apart (program : String) (env : Environment) :
    (∀ calls, (({ program, env } : Binder).attemptAll calls).Faithful) ∧
    ∀ bundles bundles' : List Bundle, Bundle.ToldApart bundles →
      (∀ b, b ∈ bundles ↔ b ∈ bundles') →
      ((∃ y, ({ program, env } : Binder).bindAll bundles = .ok y) ↔
        ∃ y, ({ program, env } : Binder).bindAll bundles' = .ok y) := by
  have hapart : ({ program, env } : Binder).Apart := List.Pairwise.nil
  refine ⟨fun calls => (hapart.attemptAll calls).faithful, ?_⟩
  intro bundles bundles' htold hsame
  have hnew : Bundle.Compatible ({ program, env } : Binder).bundles := fun b hb => by cases hb
  have htold' : Bundle.ToldApart bundles' := fun b hb b' hb' =>
    htold b ((hsame b).mpr hb) b' ((hsame b').mpr hb')
  rw [exists_bindAll_iff hnew htold, exists_bindAll_iff hnew htold']
  simp only [List.nil_append, Bundle.Compatible, hsame]

/-- Three bundles, of which the last calls the group of its arguments what an argument of
the first is called.  They cannot all be bound, in whatever order: the complaint names the
first, or the last if that was there before. -/
theorem binds_apart_reversed :
    let workers : Bundle := {
      name := "workers", title := "Workers"
      args := [{ id := "count", long := some "count", short := some 'c', valueName := "COUNT" }] }
    let paths : Bundle := {
      name := "paths", title := "Paths"
      args := [{ id := "cache", long := some "cache", valueName := "CACHE" }] }
    let retries : Bundle := {
      name := "retries", title := "Retries", group := some "count"
      args := [{ id := "retries", long := some "retries", valueName := "RETRIES" }] }
    let x : Binder := { program := "bus" }
    Bundle.ToldApart [workers, paths, retries] ∧ (x.attemptAll [workers, paths]).Faithful ∧
      (∃ usage, (x.attemptAll [workers, paths]).bind retries =
        .error (.duplicateFlag "argument group `count`" "workers" "retries" usage)) ∧
      (∃ usage, (x.attemptAll [retries, paths]).bind workers =
        .error (.duplicateFlag "argument group `count`" "retries" "workers" usage)) ∧
      ¬(∃ y, x.bindAll [workers, paths, retries] = .ok y) ∧
      ¬∃ y, x.bindAll [retries, paths, workers] = .ok y := by
  intro workers paths retries x
  obtain ⟨hfaithful, horder⟩ := binds_apart "bus" fun _ => none
  have htold : Bundle.ToldApart [workers, paths, retries] := by
    intro b hb b' hb' hkey
    simp only [List.mem_cons, List.not_mem_nil, or_false] at hb hb'
    rcases hb with rfl | rfl | rfl <;> rcases hb' with rfl | rfl | rfl <;>
      first | rfl | exact absurd hkey (by decide)
  have hrefused : ¬∃ y, x.bindAll [workers, paths, retries] = .ok y := by
    rintro ⟨y, hy⟩
    cases hy
  have hsame (b : Bundle) :
      b ∈ [workers, paths, retries] ↔ b ∈ [workers, paths, retries].reverse :=
    List.mem_reverse.symm
  exact ⟨htold, hfaithful [workers, paths], ⟨_, rfl⟩, ⟨_, rfl⟩, hrefused,
    fun h => hrefused ((horder _ _ htold hsame).mpr h)⟩

end Binder
end LaneBus
