import LaneBus.Proofs.Groups

/-! # Resolving an identity

The name of a plugin is cut into a reserved front, a group and a main segment, the
outer two being cut off once if they are there (`Identity.Cut`).  The front goes first, so
where the two share a dot only the front is cut off.  There is one such cut, and the derived
group is what it leaves (`Identity.exists_cut_iff`).

An identity is resolved exactly when the options name a bus, no given group or instance is
empty, and a group is given or left by the cut.  Else the first of these that fails is the
error, and of what is resolved nothing is empty (`Identity.resolve_decides`).
-/
namespace LaneBus
namespace Identity

variable {name group inst fresh : String} {options : BusOptions} {e : ConfigError} {i : Identity}

/-! ## Instance ids that are made up -/

/-- An instance id that is made up: 32 hexadecimal digits. -/
def Generated (inst : String) : Prop :=
  inst.toList.length = 32 ∧ ∀ c ∈ inst.toList, c ∈ "0123456789abcdef".toList

theorem Generated.ne_empty (h : Generated inst) : inst ≠ "" := by
  rintro rfl
  cases h.1

theorem markByte_lt {n : Nat} (h : n < 256) (position : Nat) : markByte n position < 256 := by
  unfold markByte
  split <;> omega

theorem digitChar_mem : ∀ n < 16, Nat.digitChar n ∈ "0123456789abcdef".toList := by decide

/-- **What is made of sixteen bytes**, whichever they are. -/
theorem generated_madeInstance {bytes : List UInt8} (h : bytes.length = 16) :
    Generated (madeInstance bytes) := by
  rw [Generated, madeInstance, String.toList_ofList]
  constructor
  · simp [List.length_flatMap, h]
  · intro c hc
    obtain ⟨⟨b, position⟩, -, hdigit⟩ := List.mem_flatMap.mp hc
    have hmarked := markByte_lt b.toNat_lt position
    dsimp only at hdigit
    rcases List.mem_pair.mp hdigit with rfl | rfl
    · exact digitChar_mem _ (by omega)
    · exact digitChar_mem _ (by omega)

/-! ## Cutting a name -/

/-- **A name is cut** into a front, a group and a back.  The front is empty only if the name is
not in the reserved namespace, and the back only if what is left does not end in the main
segment. -/
structure Cut (name front group back : String) : Prop where
  whole : name = front ++ group ++ back
  front_cases : front = "" ∨ front = reservedNamespace
  back_cases : back = "" ∨ back = mainSegment
  plain : front = "" → ¬Qualified name
  ended : back = "" → ¬EndsInMain group

/-- The group that a cut leaves is the derived one. -/
theorem exists_cut_iff : (∃ front back, Cut name front group back) ↔ defaultGroup name = group := by
  rw [defaultGroup_eq_iff]
  constructor
  · rintro ⟨front, back, rfl, hfront, hback, hplain, hend⟩
    rw [String.append_assoc]
    rcases hfront with rfl | rfl <;> rcases hback with rfl | rfl
    · rw [String.append_empty, String.empty_append] at hplain ⊢
      exact .plain (hplain rfl) (hend rfl)
    · rw [String.empty_append] at hplain ⊢
      exact .main (hplain rfl)
    · rw [String.append_empty]
      exact .qualified (hend rfl)
    · exact .full
  · intro h
    cases h with
    | plain hplain hend =>
      exact ⟨"", "", by simp, .inl rfl, .inl rfl, fun _ => hplain, fun _ => hend⟩
    | qualified hend =>
      exact ⟨reservedNamespace, "", by simp, .inr rfl, .inl rfl, nofun, fun _ => hend⟩
    | main hplain => exact ⟨"", mainSegment, by simp, .inl rfl, .inr rfl, fun _ => hplain, nofun⟩
    | full =>
      exact ⟨reservedNamespace, mainSegment, String.append_assoc.symm, .inr rfl, .inr rfl,
        nofun, nofun⟩

/-- **A name is cut in one way**, whose group is the derived one. -/
theorem existsUnique_cut (name : String) :
    ∃! group, ∃ front back, Cut name front group back :=
  ⟨defaultGroup name, exists_cut_iff.mpr rfl, fun _ h => (exists_cut_iff.mp h).symm⟩

/-! ## What each option decides -/

variable {given : Option String}

theorem resolveGroup_eq_ok (h : given.getD (defaultGroup name) ≠ "") :
    resolveGroup name given = .ok (given.getD (defaultGroup name)) := by
  cases given <;> exact if_neg h

theorem resolveInstance_eq_ok (h : given ≠ some "") :
    resolveInstance fresh given = .ok (given.getD fresh) := by
  cases given with
  | none => rfl
  | some inst => exact if_neg fun hempty => h (congrArg some hempty)

/-- The options name a bus. -/
def Addressed (options : BusOptions) : Prop := ∃ url, options.url = some url ∧ url ≠ ""

/-- A group is given, or left by the cut of the name, and not empty. -/
def Grouped (name : String) (options : BusOptions) : Prop :=
  options.group ≠ some "" ∧
    (options.group = none → ¬∃ front back, Cut name front "" back)

/-- **Why options are refused**: the bus is looked at before the group, and the group before the
instance. -/
inductive Refused (name : String) (options : BusOptions) : ConfigError → Prop where
  | url (h : ¬Addressed options) : Refused name options .missingBusUrl
  | group (hurl : Addressed options) (h : options.group = some "") :
    Refused name options (.emptyOverride "--kafka-group-id")
  | name (hurl : Addressed options) (h : options.group = none)
    (hcut : ∃ front back, Cut name front "" back) : Refused name options (.invalidPluginId name)
  | inst (hurl : Addressed options) (hgroup : Grouped name options)
    (h : options.instanceId = some "") : Refused name options (.emptyOverride "--instance-id")

theorem grouped_iff :
    Grouped name options ↔ options.group.getD (defaultGroup name) ≠ "" := by
  rw [Grouped, exists_cut_iff]
  cases options.group <;> simp

/-- The bus, the group and the instance of usable options are the ones that are given, or
else derived and made up. -/
theorem resolve_of_usable {url : String} (hurl : options.url = some url) (hne : url ≠ "")
    (hgroup : Grouped name options) (hinst : options.instanceId ≠ some "") :
    resolve name options fresh = .ok
      { url
        group := options.group.getD (defaultGroup name)
        client := options.group.getD (defaultGroup name) ++ Lane.separator.toString ++
          options.instanceId.getD fresh } := by
  have hg := resolveGroup_eq_ok (grouped_iff.mp hgroup)
  simp only [resolve, hurl, if_neg hne, hg, resolveInstance_eq_ok hinst]

theorem resolve_of_refused (h : Refused name options e) :
    resolve name options fresh = .error e := by
  cases h with
  | url h =>
    unfold resolve
    split
    · rfl
    · rename_i url hurl
      rw [if_pos]
      by_contra hne
      exact h ⟨url, hurl, hne⟩
  | group hurl h =>
    obtain ⟨url, hurl, hne⟩ := hurl
    simp only [resolve, hurl, if_neg hne, h]
    rfl
  | name hurl h hcut =>
    obtain ⟨url, hurl, hne⟩ := hurl
    simp only [resolve, hurl, if_neg hne, h, resolveGroup, if_pos (exists_cut_iff.mp hcut)]
  | inst hurl hgroup h =>
    obtain ⟨url, hurl, hne⟩ := hurl
    have hg := resolveGroup_eq_ok (grouped_iff.mp hgroup)
    simp only [resolve, hurl, if_neg hne, hg, h]
    rfl

/-- Options are refused or usable. -/
theorem refused_or_usable (name : String) (options : BusOptions) :
    (∃ e, Refused name options e) ∨
      Addressed options ∧ Grouped name options ∧ options.instanceId ≠ some "" := by
  by_cases hurl : Addressed options
  · by_cases hempty : options.group = some ""
    · exact .inl ⟨_, .group hurl hempty⟩
    · by_cases hname : options.group = none ∧ ∃ front back, Cut name front "" back
      · exact .inl ⟨_, .name hurl hname.1 hname.2⟩
      · have hgroup : Grouped name options := ⟨hempty, fun hnone hcut => hname ⟨hnone, hcut⟩⟩
        by_cases hinst : options.instanceId = some ""
        · exact .inl ⟨_, .inst hurl hgroup hinst⟩
        · exact .inr ⟨hurl, hgroup, hinst⟩
  · exact .inl ⟨_, .url hurl⟩

/-- **What is resolved**: the bus, the group, and the client under its instance. -/
theorem of_resolve (h : resolve name options fresh = .ok i) :
    (options.url = some i.url ∧ i.url ≠ "") ∧
      (Grouped name options ∧ i.group = options.group.getD (defaultGroup name)) ∧
      options.instanceId ≠ some "" ∧
      i.client = i.group ++ Lane.separator.toString ++ options.instanceId.getD fresh := by
  rcases refused_or_usable name options with ⟨e, hrefused⟩ | ⟨⟨url, hurl, hne⟩, hgroup, hinst⟩
  · rw [resolve_of_refused hrefused] at h
    cases h
  · rw [resolve_of_usable hurl hne hgroup hinst] at h
    cases h
    exact ⟨⟨hurl, hne⟩, ⟨hgroup, rfl⟩, hinst, rfl⟩

theorem resolve_eq_error : resolve name options fresh = .error e ↔ Refused name options e := by
  refine ⟨fun h => ?_, resolve_of_refused⟩
  rcases refused_or_usable name options with ⟨e', hrefused⟩ | ⟨⟨url, hurl, hne⟩, hgroup, hinst⟩
  · rw [resolve_of_refused hrefused] at h
    cases h
    exact hrefused
  · rw [resolve_of_usable hurl hne hgroup hinst] at h
    cases h

/-- **How an identity is resolved.**  It is resolved exactly when a bus is named, no given group
or instance is empty, and a group is given or left by the cut of the name; else the first of
bus, group and instance that is not usable is the error.  A given group is taken verbatim,
else the one that the only cut of the name leaves.  No group is empty, and the client is the
group, a dash and an instance that is not empty. -/
theorem resolve_decides (name : String) (options : BusOptions) (hfresh : Generated fresh) :
    ((∃ i, resolve name options fresh = .ok i) ↔
      (∃ url, options.url = some url ∧ url ≠ "") ∧
        (options.group ≠ some "" ∧ options.instanceId ≠ some "") ∧
        (options.group.isSome ∨ ¬∃ front back, Cut name front "" back)) ∧
    (∀ e, resolve name options fresh = .error e ↔ Refused name options e) ∧
    (∃! group, ∃ front back, Cut name front group back) ∧
    ∀ i, resolve name options fresh = .ok i →
      options.url = some i.url ∧
      (options.group = some i.group ∨
        options.group = none ∧ ∃ front back, Cut name front i.group back) ∧
      i.group ≠ "" ∧
      ∃ inst, inst = options.instanceId.getD fresh ∧ inst ≠ "" ∧
        i.client = i.group ++ "-" ++ inst := by
  refine ⟨?_, fun _ => resolve_eq_error, existsUnique_cut name, fun i h => ?_⟩
  · constructor
    · rintro ⟨i, h⟩
      obtain ⟨hurl, ⟨⟨hempty, hcut⟩, -⟩, hinst, -⟩ := of_resolve h
      refine ⟨⟨i.url, hurl⟩, ⟨hempty, hinst⟩, ?_⟩
      by_cases hnone : options.group = none
      · exact .inr (hcut hnone)
      · exact .inl (Option.isSome_iff_ne_none.mpr hnone)
    · rintro ⟨⟨url, hurl, hne⟩, ⟨hempty, hinst⟩, hgroup⟩
      refine ⟨_, resolve_of_usable hurl hne ⟨hempty, fun hnone => ?_⟩ hinst⟩
      exact hgroup.resolve_left (by simp [hnone])
  · obtain ⟨⟨hurl, -⟩, ⟨hgrouped, hgroup⟩, hinst, hclient⟩ := of_resolve h
    refine ⟨hurl, ?_, hgroup ▸ grouped_iff.mp hgrouped, _, rfl, ?_, hclient⟩
    · rw [exists_cut_iff]
      cases hgiven : options.group with
      | none =>
        rw [hgiven] at hgroup
        exact .inr ⟨rfl, hgroup.symm⟩
      | some g =>
        rw [hgiven] at hgroup
        exact .inl (congrArg some hgroup.symm)
    · cases hgiven : options.instanceId with
      | none => exact hfresh.ne_empty
      | some inst =>
        rw [hgiven] at hinst
        exact fun hnil => hinst (congrArg some hnil)

/-- A name whose reserved namespace and main segment share a dot, and one that they are all of. -/
theorem resolve_decides_shared_dot :
    let bus : BusOptions := { url := some "memory://b" }
    let fresh := madeInstance (List.replicate 16 0)
    Generated fresh ∧
      (∃ i, resolve "eu.f4sten.Main" bus fresh = .ok i ∧ i.group = "Main" ∧
        ∃ inst, inst ≠ "" ∧ i.client = i.group ++ "-" ++ inst) ∧
      resolve "eu.f4sten..Main" bus fresh = .error (.invalidPluginId "eu.f4sten..Main") := by
  intro bus fresh
  have hfresh : Generated fresh := generated_madeInstance List.length_replicate
  have hbus : Addressed bus := ⟨"memory://b", rfl, by decide⟩
  have hkept : defaultGroup "eu.f4sten.Main" = "Main" := by decide +kernel
  have hnothing : defaultGroup "eu.f4sten..Main" = "" := by decide +kernel
  obtain ⟨hwhen, -, -, hwhat⟩ := resolve_decides "eu.f4sten.Main" bus hfresh
  obtain ⟨-, hwhy, -⟩ := resolve_decides "eu.f4sten..Main" bus hfresh
  refine ⟨hfresh, ?_, (hwhy _).mpr (.name hbus rfl (exists_cut_iff.mpr hnothing))⟩
  have hleft : ¬∃ front back, Cut "eu.f4sten.Main" front "" back := by
    rw [exists_cut_iff, hkept]
    decide
  obtain ⟨i, hi⟩ := hwhen.mpr ⟨hbus, by decide, .inr hleft⟩
  obtain ⟨-, hgroup, -, inst, -, hne, hclient⟩ := hwhat i hi
  rcases hgroup with hgiven | ⟨-, hcut⟩
  · cases hgiven
  · exact ⟨i, hi, (exists_cut_iff.mp hcut).symm.trans hkept, inst, hne, hclient⟩

end Identity
end LaneBus
