import LaneBus.Proofs.Dependence
import LaneBus.Proofs.Lookup
import LaneBus.Proofs.Skipping
import Mathlib.Data.List.Pairwise

/-! # The groups of plugins

The consumer group of a plugin is derived from its name by leaving out the reserved
namespace and a final main segment, so a group has up to four names
(`Identity.defaultGroup_eq_iff`).  A registry keeps full names apart and nothing else.

Hence two plugins of one registry share a group exactly when their names are two names of
one group, and all groups of a registry are apart exactly when the short names are, except
that a plugin without one never joins a bus (`Registry.groups_apart_iff`).  To be apart is
what keeps plugins from each other: whatever is done on the connections of one group, those
of another resume where they would have resumed (`Identity.spares_iff`), and of two plugins
that share a group one resumes behind what the other has read (`Registry.shared_group`).
-/
namespace LaneBus

/-! ## The names of a group -/

namespace Identity

variable {group name : String}

/-- A name in the reserved namespace. -/
def Qualified (name : String) : Prop := ∃ rest, name = reservedNamespace ++ rest

/-- A name that ends in the main segment. -/
def EndsInMain (name : String) : Prop := ∃ rest, name = rest ++ mainSegment

/-- **The names of a group**: it may stand in the reserved namespace, and a main segment may
follow it. -/
inductive NameOf (group : String) : String → Prop where
  | plain (hplain : ¬Qualified group) (hend : ¬EndsInMain group) : NameOf group group
  | qualified (hend : ¬EndsInMain group) : NameOf group (reservedNamespace ++ group)
  | main (hplain : ¬Qualified (group ++ mainSegment)) : NameOf group (group ++ mainSegment)
  | full : NameOf group (reservedNamespace ++ (group ++ mainSegment))

theorem dropFront?_eq_none : Text.dropFront? reservedNamespace name = none ↔ ¬Qualified name := by
  rw [Option.eq_none_iff_forall_ne_some, Qualified, not_exists]
  exact forall_congr' fun _ => not_congr Text.dropFront?_eq_some

theorem dropBack?_eq_none : Text.dropBack? mainSegment name = none ↔ ¬EndsInMain name := by
  rw [Option.eq_none_iff_forall_ne_some, EndsInMain, not_exists]
  exact forall_congr' fun _ => not_congr Text.dropBack?_eq_some

theorem unqualified_eq_iff {rest : String} : unqualified name = rest ↔
    name = reservedNamespace ++ rest ∨ name = rest ∧ ¬Qualified name := by
  rw [unqualified, ← dropFront?_eq_none, ← Text.dropFront?_eq_some]
  cases Text.dropFront? reservedNamespace name <;> simp

/-- **The group derived from a name** is the one that it is a name of. -/
theorem defaultGroup_eq_iff : defaultGroup name = group ↔ NameOf group name := by
  have hcut : defaultGroup name = group ↔ unqualified name = group ++ mainSegment ∨
      unqualified name = group ∧ ¬EndsInMain (unqualified name) := by
    rw [defaultGroup, ← dropBack?_eq_none, ← Text.dropBack?_eq_some]
    cases Text.dropBack? mainSegment (unqualified name) <;> simp
  rw [hcut]
  constructor
  · rintro (h | ⟨h, hend⟩)
    · rcases unqualified_eq_iff.mp h with rfl | ⟨rfl, hplain⟩
      · exact .full
      · exact .main hplain
    · rw [h] at hend
      rcases unqualified_eq_iff.mp h with rfl | ⟨rfl, hplain⟩
      · exact .qualified hend
      · exact .plain hplain hend
  · intro h
    cases h with
    | plain hplain hend =>
      have hsame : unqualified group = group := unqualified_eq_iff.mpr (.inr ⟨rfl, hplain⟩)
      exact .inr ⟨hsame, by rwa [hsame]⟩
    | qualified hend =>
      have hsame : unqualified (reservedNamespace ++ group) = group :=
        unqualified_eq_iff.mpr (.inl rfl)
      exact .inr ⟨hsame, by rwa [hsame]⟩
    | main hplain => exact .inl (unqualified_eq_iff.mpr (.inr ⟨rfl, hplain⟩))
    | full => exact .inl (unqualified_eq_iff.mpr (.inl rfl))

/-- The group of an identity is the one that is resolved for it. -/
theorem resolveGroup_of_resolve {options : BusOptions} {fresh : String} {i : Identity}
    (h : resolve name options fresh = .ok i) : resolveGroup name options.group = .ok i.group := by
  unfold resolve at h
  split at h
  · cases h
  · split at h
    · cases h
    · split at h
      · cases h
      · rename_i hresolved
        split at h
        · cases h
        · cases h
          exact hresolved

/-- Without a given group it is the derived one, and there is none for a name that leaves
nothing. -/
theorem derived_of_resolveGroup (h : resolveGroup name none = .ok group) :
    group = defaultGroup name ∧ defaultGroup name ≠ "" := by
  unfold resolveGroup at h
  dsimp only at h
  split at h
  · cases h
  · rename_i hsome
    exact ⟨(Except.ok.inj h).symm, hsome⟩

end Identity

/-! ## What a connection does to the groups -/

namespace Connection

/-- The calls of a connection. -/
inductive Call where
  | subscribe (addresses : List String)
  | fetch (now : Timestamp) (addresses : List String) (late : List (String × String))
  | seek (address : String) (offset : Nat)
  | send (address payload : String)
  | commit
  | heartbeat (now : Timestamp)
  | close

/-- The connection and the broker after a call, whether or not it failed. -/
def call (c : Connection) (b : Broker) : Call → Connection × Broker
  | .subscribe addresses => ((c.subscribe b addresses).toOption.getD c, b)
  | .fetch now addresses late => (c.fetchWaiting b now addresses late).2
  | .seek address offset => ((c.seek address offset).toOption.getD c, b)
  | .send address payload => (c, (c.send b address payload).toOption.getD b)
  | .commit => (c, (c.commit b).toOption.getD b)
  | .heartbeat now => (c, (c.heartbeat b now).toOption.getD b)
  | .close => (c.close.toOption.getD c, b)

/-- The connection and the broker after some calls. -/
def calls (c : Connection) (b : Broker) : List Call → Connection × Broker
  | [] => (c, b)
  | next :: rest => (c.call b next).1.calls (c.call b next).2 rest

variable {c : Connection} {b : Broker} {g : String}

/-- A fetch commits nothing. -/
theorem fetch_committed (c : Connection) (b : Broker) (now : Timestamp) (addresses : List String) :
    (c.fetch b now addresses).2.1.identity = c.identity ∧
      (c.fetch b now addresses).2.2.committed = b.committed := by
  unfold fetch
  split
  · exact ⟨rfl, rfl⟩
  · split
    · exact ⟨rfl, rfl⟩
    · exact ⟨rfl, (noteFetched_logs_committed ..).2⟩

theorem fetchWaiting_committed (now : Timestamp) (addresses : List String)
    (late : List (String × String)) (c : Connection) (b : Broker) :
    (c.fetchWaiting b now addresses late).2.1.identity = c.identity ∧
      (c.fetchWaiting b now addresses late).2.2.committed = b.committed := by
  induction late generalizing c b with
  | nil => exact c.fetch_committed b now addresses
  | cons arrival more ih =>
    obtain ⟨hidentity, hcommitted⟩ := c.fetch_committed b now addresses
    unfold fetchWaiting
    split
    · rename_i c' b' hfetch
      rw [hfetch] at hidentity hcommitted
      obtain ⟨hidentity', hcommitted'⟩ := ih c' (b'.append arrival.1 arrival.2)
      exact ⟨hidentity'.trans hidentity, hcommitted'.trans hcommitted⟩
    · rename_i outcome c' b' _ hfetch
      rw [hfetch] at hidentity hcommitted
      exact ⟨hidentity, (b'.grows_late (arrival :: more)).committed.trans hcommitted⟩

/-- A call does not change who makes it. -/
theorem call_identity (c : Connection) (b : Broker) (next : Call) :
    (c.call b next).1.identity = c.identity := by
  cases next with
  | subscribe addresses =>
    simp only [call, subscribe]
    split <;> rfl
  | fetch now addresses late => exact (fetchWaiting_committed now addresses late c b).1
  | seek address offset =>
    simp only [call, seek]
    split
    · rfl
    · split <;> rfl
  | send | commit | heartbeat => rfl
  | close =>
    simp only [call, close]
    split <;> rfl

/-- **One call** leaves alone what other groups have committed. -/
theorem call_spares (c : Connection) (b : Broker) (next : Call) (hg : g ≠ c.identity.group)
    (a : String) : (c.call b next).2.committedOffset g a = b.committedOffset g a := by
  have hsame {b' : Broker} (h : b'.committed = b.committed) :
      b'.committedOffset g a = b.committedOffset g a := by
    rw [Broker.committedOffset, Broker.committedOffset, h]
  cases next with
  | subscribe | seek | close => rfl
  | fetch now addresses late => exact hsame (fetchWaiting_committed now addresses late c b).2
  | send address payload =>
    refine hsame ?_
    simp only [call, send]
    split <;> rfl
  | commit =>
    cases hcommit : c.commit b with
    | error e => simp only [call, hcommit]; rfl
    | ok b' =>
      simp only [call, hcommit]
      exact (committedOffset_commit hcommit g a).trans (if_neg hg)
  | heartbeat now =>
    refine hsame ?_
    simp only [call, heartbeat]
    split <;> rfl

/-- **Any number of calls** leave alone what other groups have committed. -/
theorem calls_spare (requests : List Call) (c : Connection) (b : Broker)
    (hg : g ≠ c.identity.group) (a : String) :
    (c.calls b requests).2.committedOffset g a = b.committedOffset g a := by
  induction requests generalizing c b with
  | nil => rfl
  | cons next rest ih =>
    exact (ih _ _ ((c.call_identity b next).symm ▸ hg)).trans (c.call_spares b next hg a)

/-- Where a connection of a group starts to read depends on what the group has committed. -/
theorem subscribe_congr {b' : Broker}
    (h : ∀ a, b'.committedOffset c.identity.group a = b.committedOffset c.identity.group a)
    (addresses : List String) : c.subscribe b' addresses = c.subscribe b addresses := by
  unfold subscribe
  rw [track_congr h]

end Connection

namespace Identity

/-- Whatever is done on a connection of one identity, what the group of the other has committed
stays, and a connection of the other resumes where it would have resumed. -/
def Spares (i i' : Identity) : Prop :=
  ∀ (b : Broker) (outage : Outage) (c : Connection) (requests : List Connection.Call),
    Connection.connect i outage = .ok c →
    (∀ a, (c.calls b requests).2.committedOffset i'.group a = b.committedOffset i'.group a) ∧
    ∀ c' : Connection, c'.identity = i' → ∀ addresses,
      c'.subscribe (c.calls b requests).2 addresses = c'.subscribe b addresses

/-- **Identities spare each other** exactly when their groups differ. -/
theorem spares_iff {i i' : Identity} : i.Spares i' ↔ i.group ≠ i'.group := by
  constructor
  · intro h hsame
    let b : Broker := ({} : Broker).append "t-NORMAL" "r"
    let c : Connection := { identity := i }
    let reading : List Connection.Call :=
      [.subscribe ["t-NORMAL"], .fetch ⟨2024, 1, 1, 0, 0, 0, 0⟩ ["t-NORMAL"] []]
    -- the one record is read, and then committed
    have hposition : (c.calls b reading).1.positions.get? "t-NORMAL" = some 1 := rfl
    obtain ⟨b', hcommit⟩ : ∃ b', (c.calls b reading).1.commit (c.calls b reading).2 = .ok b' :=
      ⟨_, rfl⟩
    have hcommitted : b'.committedOffset i'.group "t-NORMAL" = some 1 := by
      rw [Connection.committedOffset_commit hcommit, hposition]
      exact if_pos hsame.symm
    have hcalls : (c.calls b (reading ++ [.commit])).2 = b' :=
      congrArg (fun outcome => outcome.toOption.getD (c.calls b reading).2) hcommit
    have hkept := (h b {} c (reading ++ [.commit]) rfl).1 "t-NORMAL"
    rw [hcalls, hcommitted] at hkept
    cases hkept
  · rintro hne b outage c requests hconnect
    have hidentity : c.identity = i := by
      unfold Connection.connect at hconnect
      split at hconnect
      · cases hconnect
      · cases hconnect
        rfl
    have hcommitted := c.calls_spare requests b (hidentity.symm ▸ hne.symm)
    exact ⟨hcommitted, fun c' hc' => Connection.subscribe_congr (hc'.symm ▸ hcommitted)⟩

end Identity

/-! ## The groups of a registry -/

/-- A process of a plugin may have an identity, the group not being given. -/
def PluginEntry.Identifies (e : PluginEntry) (i : Identity) : Prop :=
  ∃ options fresh, options.group = none ∧ Identity.resolve e.name options fresh = .ok i

namespace PluginEntry

variable {e e' : PluginEntry} {i i' : Identity}

theorem Identifies.group (h : e.Identifies i) : i.group = e.shortName ∧ e.shortName ≠ "" := by
  obtain ⟨options, fresh, hgroup, hresolve⟩ := h
  have hresolved := Identity.resolveGroup_of_resolve hresolve
  rw [hgroup] at hresolved
  exact Identity.derived_of_resolveGroup hresolved

/-- A plugin joins a bus under its short name, if it has one. -/
theorem identifies_shortName {g : String} (h : e.shortName = g) (hg : g ≠ "") (fresh : String) :
    e.Identifies ⟨"memory://b", g, g ++ Lane.separator.toString ++ fresh⟩ := by
  have hgroup : Identity.resolveGroup e.name none = .ok g := by
    subst h
    exact if_neg hg
  refine ⟨{ url := some "memory://b" }, fresh, rfl, ?_⟩
  simp only [Identity.resolve, hgroup]
  rfl

/-- **Two plugins share a group** exactly when their names are names of one group. -/
theorem group_eq_iff (h : e.Identifies i) (h' : e'.Identifies i') :
    i.group = i'.group ↔ ∃ g, Identity.NameOf g e.name ∧ Identity.NameOf g e'.name := by
  rw [h.group.1, h'.group.1]
  constructor
  · intro hsame
    exact ⟨e.shortName, Identity.defaultGroup_eq_iff.mp rfl,
      Identity.defaultGroup_eq_iff.mp hsame.symm⟩
  · rintro ⟨g, hname, hname'⟩
    exact (Identity.defaultGroup_eq_iff.mpr hname).trans
      (Identity.defaultGroup_eq_iff.mpr hname').symm

end PluginEntry

namespace Registry

variable {r r' : Registry} {entries : List PluginEntry}

/-- Registering several plugins keeps the names apart. -/
theorem nodup_names_registerAll (hr : r.names.Nodup) (h : r.registerAll entries = .ok r') :
    r'.names.Nodup := by
  induction entries generalizing r with
  | nil =>
    cases h
    exact hr
  | cons e rest ih =>
    unfold registerAll at h
    split at h
    · cases h
    · rename_i next hregister
      exact ih (nodup_names_register hr hregister) h

/-- Different plugins have different short names, those without one apart. -/
def ShortNamesApart (r : Registry) : Prop :=
  ((r.entries.map PluginEntry.shortName).filter (· ≠ "")).Nodup

instance (r : Registry) : Decidable r.ShortNamesApart :=
  inferInstanceAs (Decidable (List.Nodup _))

/-- The short names of a registry are apart when those of any two entries are. -/
theorem shortNamesApart_iff (hr : r.names.Nodup) : r.ShortNamesApart ↔
    ∀ e ∈ r.entries, ∀ e' ∈ r.entries, e.name ≠ e'.name → e.shortName ≠ "" →
      e.shortName ≠ e'.shortName := by
  have hnames : r.entries.Pairwise fun e e' => e.name ≠ e'.name := List.pairwise_map.mp hr
  rw [ShortNamesApart, List.Nodup, List.pairwise_filter, List.pairwise_map]
  simp only [decide_eq_true_eq]
  constructor
  · intro hpairs e he e' he' hne hsome hsame
    have : Std.Symm fun e e' : PluginEntry =>
        e.shortName ≠ "" → e'.shortName ≠ "" → e.shortName ≠ e'.shortName :=
      ⟨fun _ _ h hsome' hsome => (h hsome hsome').symm⟩
    exact hpairs.forall he he' (fun heq => hne (heq ▸ rfl)) hsome (hsame ▸ hsome) hsame
  · intro hapart
    exact hnames.imp_of_mem fun he he' hne hsome _ => hapart _ he _ he' hne hsome

/-- **When plugins have groups of their own.**  Without given groups, the plugins of a registry
are apart exactly when their short names are.  Two of them spare each other exactly when
their groups differ, and share a group exactly when their names are names of one group. -/
theorem groups_apart_iff (h : ({} : Registry).registerAll entries = .ok r) :
    ((∀ e ∈ r.entries, ∀ e' ∈ r.entries, e.name ≠ e'.name →
      ∀ i i', e.Identifies i → e'.Identifies i' → i.group ≠ i'.group ∧ i.Spares i') ↔
        r.ShortNamesApart) ∧
    ∀ e ∈ r.entries, ∀ e' ∈ r.entries, ∀ i i', e.Identifies i → e'.Identifies i' →
      (i.Spares i' ↔ i.group ≠ i'.group) ∧
      (i.group = i'.group ↔ ∃ g, Identity.NameOf g e.name ∧ Identity.NameOf g e'.name) := by
  refine ⟨?_, fun e _ e' _ i i' hi hi' =>
    ⟨Identity.spares_iff, PluginEntry.group_eq_iff hi hi'⟩⟩
  have hnames : r.names.Nodup := nodup_names_registerAll (r := {}) List.nodup_nil h
  rw [shortNamesApart_iff hnames]
  constructor
  · intro hapart e he e' he' hne hsome hsame
    have hi := PluginEntry.identifies_shortName rfl hsome "1"
    have hi' := PluginEntry.identifies_shortName hsame.symm hsome "1"
    exact (hapart e he e' he' hne _ _ hi hi').1 rfl
  · intro hapart e he e' he' hne i i' hi hi'
    have hgroups : i.group ≠ i'.group := by
      rw [hi.group.1, hi'.group.1]
      exact hapart e he e' he' hne hi.group.2
    exact ⟨hgroups, Identity.spares_iff.mpr hgroups⟩

/-- The plugins that every process has are apart. -/
theorem groups_apart_builtin :
    ({} : Registry).registerAll builtin.entries = .ok builtin ∧
      ∀ e ∈ builtin.entries, ∀ e' ∈ builtin.entries, e.name ≠ e'.name →
        ∀ i i', e.Identifies i → e'.Identifies i' → i.group ≠ i'.group ∧ i.Spares i' := by
  have hbuilt : ({} : Registry).registerAll builtin.entries = .ok builtin := rfl
  obtain ⟨hiff, -⟩ := groups_apart_iff hbuilt
  exact ⟨hbuilt, hiff.mpr (by decide +kernel)⟩

/-- **A shared group.**  Two plugins of different names are registered and derive the same
group.  One reads the record of an address and commits; the other, which would have read the
record, resumes behind it. -/
theorem shared_group :
    let now : Timestamp := ⟨2024, 1, 1, 0, 0, 0, 0⟩
    let stub (name : String) : PluginEntry :=
      { name, version := "1", description := ""
        make := fun _ => .ok (.task fun b => (.ok (), b, [])) }
    let b : Broker := ({} : Broker).append "t-NORMAL" "r"
    let reading : List Connection.Call := [.subscribe ["t-NORMAL"], .fetch now ["t-NORMAL"] []]
    ∃ r i i', ({} : Registry).registerAll [stub "eu.f4sten.x.Main", stub "x.Main"] = .ok r ∧
      (stub "eu.f4sten.x.Main").Identifies i ∧ (stub "x.Main").Identifies i' ∧
      i.group = i'.group ∧
      let c : Connection := { identity := i }
      let c' : Connection := { identity := i' }
      let left := (c.calls b (reading ++ [.commit])).2
      let reads (b : Broker) : Option (List Record) :=
        ((c'.calls b [.subscribe ["t-NORMAL"]]).1.fetch b now ["t-NORMAL"]).1.toOption
      reads b = some [⟨"t-NORMAL", 0, "r"⟩] ∧
        left.committedOffset i'.group "t-NORMAL" = some 1 ∧ reads left = some [] := by
  intro now stub b reading
  have hfirst : (stub "eu.f4sten.x.Main").Identifies ⟨"memory://b", "x", _⟩ :=
    PluginEntry.identifies_shortName (by decide +kernel) (by decide) "1"
  have hsecond : (stub "x.Main").Identifies ⟨"memory://b", "x", _⟩ :=
    PluginEntry.identifies_shortName (by decide +kernel) (by decide) "2"
  have hregistered : ({} : Registry).registerAll [stub "eu.f4sten.x.Main", stub "x.Main"] =
      .ok { entries := [stub "eu.f4sten.x.Main", stub "x.Main"] } := by
    simp [registerAll, register, names, stub]
  exact ⟨_, _, _, hregistered, hfirst, hsecond, rfl, by decide +kernel⟩

end Registry
end LaneBus
