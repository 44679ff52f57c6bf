import LaneBus.Plugin.Registry
import Mathlib.Data.List.Nodup
import Mathlib.Tactic.SplitIfs

/-! # Looking up plugins

A plugin has a name of each of three kinds, and an id is compared with those of one kind after
those of the other.  The first kind with a match decides: one plugin of that name is found, and
several are ambiguous, however many have the name of a later kind (`Registry.Answers`).

A registry keeps full names apart, whatever calls are made and refused, so that no name of that
kind is ambiguous.  What is answered depends on which plugins there are and not on the order in
which they came (`Registry.Answers.same`, `Registry.find_answers`).
-/
namespace LaneBus

/-! ## Kinds of names -/

/-- The kinds of names of a plugin, in the order in which they are tried. -/
inductive NameKind where
  | full
  | unqualified
  | short
  deriving DecidableEq

/-- The kinds that are tried before. -/
def NameKind.earlier : NameKind → List NameKind
  | full => []
  | unqualified => [full]
  | short => [full, unqualified]

/-- Of two kinds one is tried before the other. -/
theorem NameKind.trichotomy (k k' : NameKind) : k ∈ k'.earlier ∨ k = k' ∨ k' ∈ k.earlier := by
  cases k <;> cases k' <;> decide

/-- The name of a kind. -/
def PluginEntry.nameAs (e : PluginEntry) : NameKind → String
  | .full => e.name
  | .unqualified => e.unqualifiedName
  | .short => e.shortName

namespace Registry

variable {r r' : Registry} {id : String} {kind kind' : NameKind} {e e' : PluginEntry}
  {calls calls' : List PluginEntry}

/-- A plugin of the registry has an id as its name of some kind. -/
def IsNamed (r : Registry) (id : String) (kind : NameKind) (e : PluginEntry) : Prop :=
  e ∈ r.entries ∧ e.nameAs kind = id

/-- The plugins that have an id as their name of some kind. -/
def named (r : Registry) (id : String) (kind : NameKind) : List PluginEntry :=
  r.entries.filter fun e => e.nameAs kind == id

theorem mem_named : e ∈ r.named id kind ↔ r.IsNamed id kind e := by
  simp [named, IsNamed]

/-- No plugin has an id as its name of an earlier kind. -/
def NoneEarlier (r : Registry) (id : String) (kind : NameKind) : Prop :=
  ∀ k ∈ kind.earlier, ∀ e, ¬r.IsNamed id k e

/-- **What a look-up answers**: the plugin that alone has the id as its name of the first kind
under which there is any, the names of those that share it, or that there is none. -/
inductive Answers (r : Registry) (id : String) : Except RegistryError PluginEntry → Prop where
  | found {kind : NameKind} {e : PluginEntry} (hfirst : r.NoneEarlier id kind)
    (honly : ∀ e', r.IsNamed id kind e' ↔ e' = e) : Answers r id (.ok e)
  | ambiguous {kind : NameKind} {e e' : PluginEntry} {names : List String}
    (hfirst : r.NoneEarlier id kind) (he : r.IsNamed id kind e) (he' : r.IsNamed id kind e')
    (hne : e ≠ e') (hnodup : names.Nodup)
    (hnames : ∀ name, name ∈ names ↔ ∃ e, r.IsNamed id kind e ∧ e.name = name) :
    Answers r id (.error (.ambiguous id names))
  | unknown (hnone : ∀ kind e, ¬r.IsNamed id kind e) : Answers r id (.error (.unknown id r.names))

/-- Two answers are the same up to the order in which plugins are listed. -/
inductive SameAnswer :
    Except RegistryError PluginEntry → Except RegistryError PluginEntry → Prop where
  | found (e : PluginEntry) : SameAnswer (.ok e) (.ok e)
  | ambiguous {id : String} {names names' : List String} (h : names.Perm names') :
    SameAnswer (.error (.ambiguous id names)) (.error (.ambiguous id names'))
  | unknown {id : String} {known known' : List String} (h : known.Perm known') :
    SameAnswer (.error (.unknown id known)) (.error (.unknown id known'))

/-! ## Registering -/

/-- The registry after a call that registers a plugin or is refused. -/
def offer (r : Registry) (e : PluginEntry) : Registry := (r.register e).toOption.getD r

/-- The registry after some calls. -/
def offerAll (r : Registry) (calls : List PluginEntry) : Registry := calls.foldl offer r

/-- **A call** is refused for a name that is taken, and otherwise adds the plugin. -/
theorem register_cases (r : Registry) (e : PluginEntry) :
    (e.name ∈ r.names ∧ r.register e = .error (.duplicate e.name)) ∨
      (e.name ∉ r.names ∧ r.register e = .ok { entries := r.entries ++ [e] }) := by
  unfold register
  split_ifs with h
  · exact .inl ⟨List.contains_iff_mem.mp h, rfl⟩
  · exact .inr ⟨fun hmem => h (List.contains_iff_mem.mpr hmem), rfl⟩

/-- Registering keeps full names apart. -/
theorem nodup_names_register (hr : r.names.Nodup) (h : r.register e = .ok r') :
    r'.names.Nodup := by
  obtain ⟨-, hrefused⟩ | ⟨hnew, hadded⟩ := r.register_cases e
  · rw [hrefused] at h
    cases h
  · rw [hadded] at h
    cases h
    rw [names, List.map_append, List.nodup_append]
    refine ⟨hr, List.nodup_singleton _, ?_⟩
    rintro name hname _ hsingle rfl
    rw [List.map_singleton, List.mem_singleton] at hsingle
    exact hnew (hsingle ▸ hname)

/-- A call adds the plugin unless its name is taken. -/
theorem offer_cases (r : Registry) (e : PluginEntry) :
    (e.name ∈ r.names ∧ r.offer e = r) ∨
      (e.name ∉ r.names ∧ r.offer e = { entries := r.entries ++ [e] }) := by
  obtain ⟨htaken, hrefused⟩ | ⟨hnew, hadded⟩ := r.register_cases e
  · exact .inl ⟨htaken, by rw [offer, hrefused]; rfl⟩
  · exact .inr ⟨hnew, by rw [offer, hadded]; rfl⟩

theorem nodup_names_offerAll (hr : r.names.Nodup) (calls : List PluginEntry) :
    (r.offerAll calls).names.Nodup := by
  induction calls generalizing r with
  | nil => exact hr
  | cons e rest ih =>
    refine ih ?_
    cases hcall : r.register e with
    | error refusal => rwa [offer, hcall]
    | ok next =>
      rw [offer, hcall]
      exact nodup_names_register hr hcall

/-- The plugins are those that were offered, if no two of these share a name. -/
theorem mem_offerAll (h : ∀ e ∈ r.entries ++ calls, ∀ e' ∈ r.entries ++ calls,
    e.name = e'.name → e = e') : e ∈ (r.offerAll calls).entries ↔ e ∈ r.entries ++ calls := by
  induction calls generalizing r with
  | nil => rw [List.append_nil]; rfl
  | cons first rest ih =>
    rw [offerAll, List.foldl_cons, ← offerAll]
    obtain ⟨htaken, hsame⟩ | ⟨-, hadded⟩ := r.offer_cases first
    · -- the name is taken by the plugin itself
      obtain ⟨known, hknown, hname⟩ := List.mem_map.mp htaken
      have hfirst : first ∈ r.entries ++ first :: rest :=
        List.mem_append_right _ List.mem_cons_self
      obtain rfl := h known (List.mem_append_left _ hknown) first hfirst hname
      have hsub : ∀ e, e ∈ r.entries ++ known :: rest ↔ e ∈ r.entries ++ rest := by
        intro e
        rw [List.mem_append, List.mem_cons, List.mem_append]
        constructor
        · rintro (he | rfl | he)
          exacts [.inl he, .inl hknown, .inr he]
        · rintro (he | he)
          exacts [.inl he, .inr (.inr he)]
      rw [hsame, hsub]
      exact ih fun e he e' he' => h e ((hsub e).mpr he) e' ((hsub e').mpr he')
    · have hmove : r.entries ++ first :: rest = r.entries ++ [first] ++ rest := by simp
      rw [hmove] at h ⊢
      rw [hadded]
      exact ih h

/-! ## Looking up -/

theorem named_eq_nil : r.named id kind = [] ↔ ∀ e, ¬r.IsNamed id kind e := by
  simp only [List.eq_nil_iff_forall_not_mem, mem_named]

theorem candidates_def (r : Registry) (id : String) : r.candidates id =
    if !(r.named id .full).isEmpty then r.named id .full
    else if !(r.named id .unqualified).isEmpty then r.named id .unqualified
    else r.named id .short := rfl

/-- The candidates are the plugins that are named by the first kind of names that has any. -/
theorem candidates_eq (hfirst : r.NoneEarlier id kind) (he : r.IsNamed id kind e) :
    r.candidates id = r.named id kind := by
  have hearlier : ∀ k ∈ kind.earlier, r.named id k = [] :=
    fun k hk => named_eq_nil.mpr (hfirst k hk)
  have hsome : (r.named id kind).isEmpty = false := by
    rw [List.isEmpty_eq_false_iff]
    exact List.ne_nil_of_mem (mem_named.mpr he)
  rw [candidates_def]
  cases kind with
  | full => simp [hsome]
  | unqualified => simp [hsome, hearlier .full (by decide)]
  | short => simp [hearlier .full (by decide), hearlier .unqualified (by decide)]

/-- Where a plugin has an id as a name of some kind, there is a first such kind. -/
theorem exists_first (he : r.IsNamed id kind e) :
    ∃ k e, r.NoneEarlier id k ∧ r.IsNamed id k e := by
  by_cases hfull : ∃ e, r.IsNamed id .full e
  · obtain ⟨e, he⟩ := hfull
    exact ⟨.full, e, fun k hk => absurd hk List.not_mem_nil, he⟩
  · by_cases hunqualified : ∃ e, r.IsNamed id .unqualified e
    · obtain ⟨e, he⟩ := hunqualified
      refine ⟨.unqualified, e, fun k hk => ?_, he⟩
      rw [List.mem_singleton.mp hk]
      exact not_exists.mp hfull
    · refine ⟨.short, e, fun k hk => ?_, ?_⟩
      · rcases List.mem_pair.mp hk with rfl | rfl
        exacts [not_exists.mp hfull, not_exists.mp hunqualified]
      · cases kind with
        | full => exact absurd ⟨e, he⟩ hfull
        | unqualified => exact absurd ⟨e, he⟩ hunqualified
        | short => exact he

/-- **A look-up answers** by the first kind of names under which there is a plugin. -/
theorem find_answer (hr : r.names.Nodup) (id : String) : r.Answers id (r.find id) := by
  by_cases hsome : ∃ kind e, r.IsNamed id kind e
  · obtain ⟨_, _, he⟩ := hsome
    obtain ⟨kind, e, hfirst, he⟩ := exists_first he
    have hnodup : ((r.named id kind).map PluginEntry.name).Nodup :=
      hr.sublist (List.filter_sublist.map PluginEntry.name)
    have hmem (e : PluginEntry) : e ∈ r.named id kind ↔ r.IsNamed id kind e := mem_named
    rw [find, candidates_eq hfirst he]
    cases hnamed : r.named id kind with
    | nil => exact absurd he (named_eq_nil.mp hnamed e)
    | cons first rest =>
      rw [hnamed] at hnodup hmem
      cases rest with
      | nil => exact .found hfirst fun e' => by rw [← hmem, List.mem_singleton]
      | cons second rest =>
        have hne : first ≠ second := by
          rintro rfl
          simp at hnodup
        refine .ambiguous hfirst ((hmem first).mp List.mem_cons_self)
          ((hmem second).mp (List.mem_cons_of_mem _ List.mem_cons_self)) hne hnodup fun name => ?_
        simp only [List.mem_map, hmem]
  · have hnone : ∀ kind e, ¬r.IsNamed id kind e :=
      fun kind e he => hsome ⟨kind, e, he⟩
    have hempty : r.candidates id = [] := by
      simp [candidates_def, named_eq_nil.mpr (hnone _)]
    rw [find, hempty]
    exact .unknown hnone

/-- There is one first kind of names. -/
theorem NoneEarlier.eq (hfirst : r.NoneEarlier id kind) (he : r.IsNamed id kind e)
    (hfirst' : r.NoneEarlier id kind') (he' : r.IsNamed id kind' e') : kind = kind' := by
  rcases kind.trichotomy kind' with hearlier | rfl | hearlier
  · exact absurd he (hfirst' _ hearlier _)
  · rfl
  · exact absurd he' (hfirst _ hearlier _)

/-- No kind is tried before full names, and full names are apart, so a plugin is found by its
own. -/
theorem find_name (hr : r.names.Nodup) (he : e ∈ r.entries) : r.find e.name = .ok e := by
  have hfull : r.IsNamed e.name .full e := ⟨he, rfl⟩
  have hnone : r.NoneEarlier e.name .full := fun k hk => absurd hk List.not_mem_nil
  have hanswer := find_answer hr e.name
  generalize r.find e.name = answer at hanswer ⊢
  cases hanswer with
  | found hfirst honly =>
    obtain rfl := hfirst.eq ((honly _).mpr rfl) hnone hfull
    rw [(honly e).mp hfull]
  | ambiguous hfirst he₁ he₂ hne =>
    obtain rfl := hfirst.eq he₁ hnone hfull
    exact absurd (List.inj_on_of_nodup_map hr he₁.1 he₂.1 (he₁.2.trans he₂.2.symm)) hne
  | unknown hunknown => exact absurd hfull (hunknown _ _)

/-! ## The order of the plugins -/

theorem isNamed_congr (hsame : ∀ e, e ∈ r'.entries ↔ e ∈ r.entries) : r'.IsNamed = r.IsNamed := by
  funext id kind e
  rw [IsNamed, IsNamed, hsame]

theorem noneEarlier_congr (hsame : ∀ e, e ∈ r'.entries ↔ e ∈ r.entries) :
    r'.NoneEarlier = r.NoneEarlier := by
  funext id kind
  rw [NoneEarlier, NoneEarlier, isNamed_congr hsame]

/-- **The plugins determine the answer**, whatever their order. -/
theorem Answers.same {x y : Except RegistryError PluginEntry} (hperm : r.entries.Perm r'.entries)
    (hx : r.Answers id x) (hy : r'.Answers id y) : SameAnswer x y := by
  have hnamed := isNamed_congr fun e => (hperm.mem_iff (a := e)).symm
  have hnone := noneEarlier_congr fun e => (hperm.mem_iff (a := e)).symm
  cases hx with
  | found hfirst honly =>
    have he := (honly _).mpr rfl
    cases hy with
    | found hfirst' honly' =>
      rw [hnamed] at honly'
      obtain rfl := hfirst.eq he (hnone ▸ hfirst') ((honly' _).mpr rfl)
      obtain rfl := (honly _).mp ((honly' _).mpr rfl)
      exact .found _
    | ambiguous hfirst' he₁ he₂ hne =>
      rw [hnamed] at he₁ he₂
      obtain rfl := hfirst.eq he (hnone ▸ hfirst') he₁
      exact absurd (((honly _).mp he₁).trans ((honly _).mp he₂).symm) hne
    | unknown hunknown => exact absurd he (hnamed ▸ hunknown _ _)
  | ambiguous hfirst he₁ he₂ hne hnodup hnames =>
    cases hy with
    | found hfirst' honly' =>
      rw [hnamed] at honly'
      obtain rfl := hfirst.eq he₁ (hnone ▸ hfirst') ((honly' _).mpr rfl)
      exact absurd (((honly' _).mp he₁).trans ((honly' _).mp he₂).symm) hne
    | ambiguous hfirst' he' _ _ hnodup' hnames' =>
      rw [hnamed] at he' hnames'
      obtain rfl := hfirst.eq he₁ (hnone ▸ hfirst') he'
      exact .ambiguous ((List.perm_ext_iff_of_nodup hnodup hnodup').mpr fun name =>
        (hnames name).trans (hnames' name).symm)
    | unknown hunknown => exact absurd he₁ (hnamed ▸ hunknown _ _)
  | unknown hunknown =>
    cases hy with
    | found _ honly' => exact absurd ((honly' _).mpr rfl) (hnamed ▸ hunknown _ _)
    | ambiguous _ he' => exact absurd he' (hnamed ▸ hunknown _ _)
    | unknown _ => exact .unknown (hperm.map PluginEntry.name)

/-- **Lookup is sound, complete and independent of order.**  After any calls, refused or not,
full names are apart; a call is refused exactly for a name that is taken, and then changes
nothing.  Every plugin is found by its full name, and every id is answered by the first kind
of names under which there is a plugin.  After other calls that leave the same plugins, in
particular after the same calls in another order as long as no two different plugins were
offered under one name, the answers are the same. -/
theorem find_answers (calls : List PluginEntry) :
    let r := ({} : Registry).offerAll calls
    r.names.Nodup ∧
    (∀ e, (e.name ∈ r.names ∧ r.register e = .error (.duplicate e.name) ∧ r.offer e = r) ∨
      (e.name ∉ r.names ∧ ∃ next, r.register e = .ok next ∧
        next.entries = r.entries ++ [e] ∧ r.offer e = next)) ∧
    (∀ e ∈ r.entries, r.find e.name = .ok e) ∧
    (∀ id, r.Answers id (r.find id)) ∧
    ∀ calls', let r' := ({} : Registry).offerAll calls'
      ((∀ e, e ∈ r'.entries ↔ e ∈ r.entries) → ∀ id, SameAnswer (r.find id) (r'.find id)) ∧
      (calls'.Perm calls → (∀ e ∈ calls, ∀ e' ∈ calls, e.name = e'.name → e = e') →
        ∀ e, e ∈ r'.entries ↔ e ∈ r.entries) := by
  intro r
  have hr : r.names.Nodup := nodup_names_offerAll (r := {}) List.nodup_nil calls
  refine ⟨hr, fun e => ?_, fun e he => find_name hr he, find_answer hr, fun calls' => ?_⟩
  · obtain ⟨htaken, hrefused⟩ | ⟨hnew, hadded⟩ := r.register_cases e
    · exact .inl ⟨htaken, hrefused, by rw [offer, hrefused]; rfl⟩
    · exact .inr ⟨hnew, _, hadded, rfl, by rw [offer, hadded]; rfl⟩
  · intro r'
    have hr' : r'.names.Nodup := nodup_names_offerAll (r := {}) List.nodup_nil calls'
    refine ⟨fun hsame id => ?_, fun hperm hapart e => ?_⟩
    · have hperm : r.entries.Perm r'.entries :=
        (List.perm_ext_iff_of_nodup (.of_map _ hr) (.of_map _ hr')).mpr fun e => (hsame e).symm
      exact (find_answer hr id).same hperm (find_answer hr' id)
    · have hmem : e ∈ r.entries ↔ e ∈ calls := mem_offerAll (r := {}) hapart
      have hmem' : e ∈ r'.entries ↔ e ∈ calls' :=
        mem_offerAll (r := {}) fun e he e' he' =>
          hapart e (hperm.mem_iff.mp he) e' (hperm.mem_iff.mp he')
      rw [hmem, hmem', hperm.mem_iff]

end Registry
end LaneBus
