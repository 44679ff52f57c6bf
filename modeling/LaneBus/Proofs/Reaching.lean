import LaneBus.Proofs.Selection

/-! # What a launch reaches

A launch checks its command line in full before it asks the bus for a connection.  Two things
say whether it has got that far: what it can have changed, and the code it exits with.  They
agree (`Launch.checked_before_connecting`).  A launch that ends before leaves all brokers as
they were and takes no step, and it ends in the same way whatever the plugins would have done
and whatever was down on a bus.  A launch that has asked for a connection fails with the code
of a failure at run time and with no other.

That nothing is made or run is not only read off the steps.  The plugins of a registry are
replaced by others that make something else (`Registry.remade`), and the launch is the same.
-/
namespace LaneBus

/-! ## Plugins that make something else -/

section

variable (make : PluginEntry → PluginContext → Except Cause Plugin)

/-- The plugin with another making. -/
def PluginEntry.remade (e : PluginEntry) : PluginEntry := { e with make := make e }

/-- The plugins of a registry with other makings. -/
def Registry.remade (r : Registry) : Registry :=
  { entries := r.entries.map (PluginEntry.remade make) }

/-- What is asked for, of a plugin with another making. -/
def Request.remade : Request → Request
  | .list => .list
  | .schema => .schema
  | .start x => .start { x with entry := x.entry.remade make }

namespace Registry

variable (r : Registry)

theorem remade_make : r.remade (fun e => e.make) = r := by
  rw [remade, show PluginEntry.remade (fun e => e.make) = id from rfl, List.map_id]

theorem names_remade : (r.remade make).names = r.names := by
  simp [names, remade, PluginEntry.remade, Function.comp_def]

theorem candidates_remade (id : String) :
    (r.remade make).candidates id = (r.candidates id).map (PluginEntry.remade make) := by
  have hfilter (name : PluginEntry → String) (hname : ∀ e, name (e.remade make) = name e) :
      (r.remade make).entries.filter (fun e => name e == id) =
        (r.entries.filter fun e => name e == id).map (PluginEntry.remade make) := by
    rw [remade, List.filter_map]
    simp only [Function.comp_def, hname]
  simp only [candidates, hfilter PluginEntry.name fun _ => rfl,
    hfilter PluginEntry.unqualifiedName fun _ => rfl, hfilter PluginEntry.shortName fun _ => rfl,
    List.isEmpty_map]
  split
  · rfl
  · split <;> rfl

/-- A plugin is found by its names. -/
theorem find_remade (id : String) :
    (r.remade make).find id = (r.find id).map (PluginEntry.remade make) := by
  rw [find, find, candidates_remade, names_remade]
  match r.candidates id with
  | [] => rfl
  | [e] => rfl
  | e :: e' :: more => simp [PluginEntry.remade, Except.map]

theorem describe_remade : (r.remade make).describe = r.describe := by
  simp only [describe, remade, List.foldl_map, List.map_map]
  rfl

end Registry

namespace Launch

variable {registry : Registry} {env : Environment} {fresh : String} {argv : List String}

theorem selected_remade (binder : Binder) : selected (registry.remade make) binder argv =
    (selected registry binder argv).map (Option.map (PluginEntry.remade make)) := by
  rw [selected, selected]
  split
  · rfl
  · rw [Registry.find_remade]
    cases registry.find _ <;> rfl

theorem setup_remade (binder : Binder) (parsed : Binder.Parsed) (entry : PluginEntry) :
    setup binder parsed fresh (entry.remade make) =
      (setup binder parsed fresh entry).map
        fun x => { x with entry := x.entry.remade make } := by
  rw [setup, setup]
  cases valuesOf parsed LogOptions.bundle LogOptions.ofMatches with
  | error e => rfl
  | ok log =>
    cases valuesOf parsed BusOptions.bundle BusOptions.ofMatches with
    | error e => rfl
    | ok bus =>
      have hname : (entry.remade make).name = entry.name := rfl
      simp only [bind, Except.bind, hname]
      cases Identity.resolve entry.name bus fresh with
      | error reason => rfl
      | ok identity =>
        dsimp only
        cases checkTransport identity.url <;> rfl

theorem requested_remade (binder : Binder) (parsed : Binder.Parsed)
    (chosen : Option PluginEntry) :
    requested binder parsed fresh (chosen.map (PluginEntry.remade make)) =
      (requested binder parsed fresh chosen).map (Request.remade make) := by
  rw [requested.eq_def, requested.eq_def]
  cases valuesOf parsed LaunchOptions.bundle LaunchOptions.ofMatches with
  | error e => rfl
  | ok options =>
    simp only [bind, Except.bind]
    split
    · rfl
    · split
      · rfl
      · cases chosen with
        | none => rfl
        | some entry =>
          simp only [Option.map_some, setup_remade]
          cases setup binder parsed fresh entry <;> rfl

/-- **A command line is checked** without what the plugins make. -/
theorem configure_remade : configure (registry.remade make) env fresh argv =
    (configure registry env fresh argv).map (Request.remade make) := by
  have hbundles (chosen : Option PluginEntry) :
      (chosen.map (PluginEntry.remade make)).elim [] PluginEntry.bundles =
        chosen.elim [] PluginEntry.bundles := by
    cases chosen <;> rfl
  rw [configure, configure]
  cases commonBinder env with
  | error reason => rfl
  | ok common =>
    simp only [selected_remade]
    cases selected registry common argv with
    | error e => rfl
    | ok chosen =>
      simp only [Except.map, hbundles]
      cases common.bindAll (chosen.elim [] PluginEntry.bundles) with
      | error reason => rfl
      | ok binder =>
        dsimp only
        cases binder.parse argv with
        | error reason => rfl
        | ok parsed => exact requested_remade make binder parsed chosen

end Launch
end

/-! ## The codes of failures -/

namespace Launch

variable {registry : Registry} {s : Surroundings} {argv : List String} {buses : Buses}
  {e : LaunchError}

theorem exitCode_setup {binder : Binder} {parsed : Binder.Parsed} {fresh : String}
    {entry : PluginEntry} (h : setup binder parsed fresh entry = .error e) :
    e.exitCode = LaunchError.configCode := by
  rw [setup] at h
  cases hlog : valuesOf parsed LogOptions.bundle LogOptions.ofMatches with
  | error reason =>
    obtain ⟨_, rfl⟩ := valuesOf_error hlog
    rw [hlog] at h
    cases h
    rfl
  | ok log =>
    cases hbus : valuesOf parsed BusOptions.bundle BusOptions.ofMatches with
    | error reason =>
      obtain ⟨_, rfl⟩ := valuesOf_error hbus
      rw [hlog, hbus] at h
      cases h
      rfl
    | ok bus =>
      simp only [hlog, hbus, bind, Except.bind] at h
      split at h
      · cases h
        rfl
      · split at h
        · cases h
          rfl
        · cases h

theorem exitCode_requested {binder : Binder} {parsed : Binder.Parsed} {fresh : String}
    {chosen : Option PluginEntry} (h : requested binder parsed fresh chosen = .error e) :
    e.exitCode = LaunchError.configCode := by
  rw [requested.eq_def] at h
  cases hvalues : valuesOf parsed LaunchOptions.bundle LaunchOptions.ofMatches with
  | error reason =>
    obtain ⟨_, rfl⟩ := valuesOf_error hvalues
    rw [hvalues] at h
    cases h
    rfl
  | ok options =>
    simp only [hvalues, bind, Except.bind] at h
    split at h
    · cases h
    · split at h
      · cases h
      · cases chosen with
        | none =>
          cases h
          rfl
        | some entry =>
          cases hsetup : setup binder parsed fresh entry with
          | error reason =>
            simp only [hsetup] at h
            cases h
            exact exitCode_setup hsetup
          | ok x =>
            simp only [hsetup] at h
            cases h

/-- **A command line that does not pass** is a mistake in the configuration. -/
theorem exitCode_configure {env : Environment} {fresh : String}
    (h : configure registry env fresh argv = .error e) :
    e.exitCode = LaunchError.configCode := by
  rw [configure] at h
  split at h
  · cases h
    rfl
  · split at h
    · rename_i hselected
      cases h
      rw [selected] at hselected
      split at hselected
      · cases hselected
      · split at hselected
        · cases hselected
          rfl
        · cases hselected
    · split at h
      · cases h
        rfl
      · split at h
        · cases h
          rfl
        · exact exitCode_requested h

/-- A log that does not open is a mistake in the configuration or ends the process. -/
theorem exitCode_openLog {x : Setup} {files : FileTree} (h : x.openLog s = (.error e, files)) :
    e.exitCode = LaunchError.configCode ∨ e.exitCode = LaunchError.abortCode := by
  rw [Setup.openLog] at h
  split at h
  · cases h
  · split at h
    · cases h
      exact .inl rfl
    · split at h
      · cases h
        exact .inr rfl
      · cases h

/-- A plugin that cannot be connected or made is a failure at run time. -/
theorem exitCode_makePlugin {x : Setup} {steps : List LaunchStep}
    (h : x.makePlugin s = (.error e, steps)) : e.exitCode = LaunchError.runtimeCode := by
  rw [Setup.makePlugin] at h
  split at h
  · cases h
    rfl
  · dsimp only at h
    split at h
    · cases h
      rfl
    · cases h

/-! ## How far a launch gets -/

/-- A launch asks the bus for a connection: its command line has passed all checks, and its log
is open. -/
def Reaches (registry : Registry) (s : Surroundings) (argv : List String) : Prop :=
  ∃ x opened files, configure registry s.env s.freshId argv = .ok (.start x) ∧
    x.openLog s = (.ok opened, files)

/-- **A launch that reaches no bus** ends in one way, whatever the plugins would have made and
whatever was down, with all brokers as they were. -/
theorem exists_end_of_not_reaches (h : ¬Reaches registry s argv) (buses : Buses) :
    ∃ result files, (∀ e, result = .error e →
        e.exitCode = LaunchError.configCode ∨ e.exitCode = LaunchError.abortCode) ∧
      ∀ make outage passes,
        ofCommandLine (registry.remade make) { s with outage, passes } argv buses =
          { result, buses, files } := by
  cases hconfigure : configure registry s.env s.freshId argv with
  | error e =>
    refine ⟨.error e, s.files, fun e' he => ?_, fun make outage passes => ?_⟩
    · cases he
      exact .inl (exitCode_configure hconfigure)
    · simp only [ofCommandLine, configure_remade, hconfigure, Except.map]
  | ok request =>
    cases request with
    | list =>
      refine ⟨.ok (.listed registry.describe), s.files, fun e he => (by cases he),
        fun make outage passes => ?_⟩
      simp only [ofCommandLine, configure_remade, hconfigure, Except.map, Request.remade,
        Registry.describe_remade]
    | schema =>
      refine ⟨.ok (.schema Envelope.schemaText), s.files, fun e he => (by cases he),
        fun make outage passes => ?_⟩
      simp only [ofCommandLine, configure_remade, hconfigure, Except.map, Request.remade]
    | start x =>
      cases hopened : x.openLog s with
      | mk outcome files =>
        cases outcome with
        | ok opened => exact absurd ⟨x, opened, files, hconfigure, hopened⟩ h
        | error e =>
          refine ⟨.error e, files, fun e' he => ?_, fun make outage passes => ?_⟩
          · cases he
            exact exitCode_openLog hopened
          · have hsame : ({ x with entry := x.entry.remade make } : Setup).openLog
                { s with outage, passes } = (.error e, files) := hopened
            simp only [ofCommandLine, configure_remade, hconfigure, Except.map, Request.remade,
              start, hsame]

/-- A launch that takes a step, or that fails at run time, reaches a bus. -/
theorem reaches_of_end (h : (ofCommandLine registry s argv buses).steps ≠ [] ∨
    ∃ e, (ofCommandLine registry s argv buses).result = .error e ∧
      e.exitCode = LaunchError.runtimeCode) : Reaches registry s argv := by
  refine Classical.byContradiction fun hunreached => ?_
  obtain ⟨result, files, hcode, hsame⟩ := exists_end_of_not_reaches hunreached buses
  have hended := hsame (fun e => e.make) s.outage s.passes
  rw [Registry.remade_make] at hended
  rcases h with hsteps | ⟨e, he, hruntime⟩
  · exact hsteps (congrArg Launch.steps hended)
  · have hresult : result = .error e := (congrArg Launch.result hended).symm.trans he
    rcases hcode e hresult with hother | hother <;> cases hother.symm.trans hruntime

/-- **A launch that reaches a bus** runs a plugin or fails at run time. -/
theorem result_of_reaches (h : Reaches registry s argv) (buses : Buses) :
    (∀ e, (ofCommandLine registry s argv buses).result = .error e →
      e.exitCode = LaunchError.runtimeCode) ∧
    ∀ result, (ofCommandLine registry s argv buses).result = .ok result → result = .completed := by
  obtain ⟨x, opened, files, hconfigure, hopened⟩ := h
  simp only [ofCommandLine, hconfigure, start, hopened]
  split
  · rename_i hmade
    refine ⟨fun e he => ?_, fun result hresult => by cases hresult⟩
    cases he
    exact exitCode_makePlugin hmade
  · dsimp only
    split
    · refine ⟨fun e he => ?_, fun result hresult => by cases hresult⟩
      cases he
      rfl
    · refine ⟨fun e he => (by cases he), fun result hresult => ?_⟩
      cases hresult
      rfl

/-- A launch that reaches a bus fails when every bus is down. -/
theorem exists_bus_of_reaches (h : Reaches registry s argv) (buses : Buses)
    {outage : String → Outage} (hdown : ∀ url, (outage url).connect = true) : ∃ reason,
      (ofCommandLine registry { s with outage } argv buses).result = .error (.bus reason) := by
  obtain ⟨x, opened, files, hconfigure, hopened⟩ := h
  have hsame : x.openLog { s with outage } = (.ok opened, files) := hopened
  have hrefused : Connection.connect x.identity (outage x.identity.url) =
      .error (Outage.failure "connect") := if_pos (hdown _)
  simp only [ofCommandLine, hconfigure, start, hsame, Setup.makePlugin, hrefused]
  exact ⟨_, rfl⟩

/-- **Configuration is checked before a bus is reached.**  A launch that ends as a mistake in
the configuration, or that lists the plugins or shows the schema, has taken no step, has left
all brokers as they were, and would have ended in the same way whatever the plugins had made
and whatever had been down.  A launch that asks a bus for a connection fails at run time or
not at all; and it is a launch that fails with the bus when every bus is down. -/
theorem checked_before_connecting (registry : Registry) (s : Surroundings) (argv : List String)
    (buses : Buses) :
    let l := ofCommandLine registry s argv buses
    ((∃ e, l.result = .error e ∧ e.exitCode = LaunchError.configCode) ∨
        (∃ text, l.result = .ok (.listed text)) ∨ (∃ text, l.result = .ok (.schema text)) →
      l.buses = buses ∧ l.steps = [] ∧ l.events = [] ∧
        ∀ make outage passes,
          ofCommandLine (registry.remade make) { s with outage, passes } argv buses = l) ∧
    (Reaches registry s argv →
      ∀ e, l.result = .error e → e.exitCode = LaunchError.runtimeCode) ∧
    ∀ outage : String → Outage, (∀ url, (outage url).connect = true) →
      (Reaches registry s argv ↔ ∃ reason,
        (ofCommandLine registry { s with outage } argv buses).result = .error (.bus reason)) := by
  intro l
  refine ⟨fun hend => ?_, fun hreaches => (result_of_reaches hreaches buses).1,
    fun outage hdown => ⟨fun hreaches => exists_bus_of_reaches hreaches buses hdown, ?_⟩⟩
  · have hunreached : ¬Reaches registry s argv := by
      intro hreaches
      obtain ⟨hcodes, hresults⟩ := result_of_reaches hreaches buses
      rcases hend with ⟨e, he, hcode⟩ | ⟨text, htext⟩ | ⟨text, htext⟩
      · cases hcode.symm.trans (hcodes e he)
      · cases hresults _ htext
      · cases hresults _ htext
    obtain ⟨result, files, -, hsame⟩ := exists_end_of_not_reaches hunreached buses
    have hl : l = { result, buses, files } := by
      simpa only [Registry.remade_make] using hsame (fun e => e.make) s.outage s.passes
    rw [hl]
    exact ⟨rfl, rfl, rfl, hsame⟩
  · rintro ⟨reason, hreason⟩
    have hreaches : Reaches registry { s with outage } argv :=
      reaches_of_end (.inr ⟨_, hreason, rfl⟩)
    exact hreaches

/-- The same plugin without a bus address, which is a mistake in the configuration, and with one,
where it cannot be made. -/
theorem checked_before_connecting_missing_url :
    let entry : PluginEntry :=
      { name := "x", version := "1", description := "", make := fun _ => .error ["missing value"] }
    let registry : Registry := { entries := [entry] }
    let s : Surroundings := { host := "h", freshId := "1", passes := [] }
    let words : List String := ["f4sten", "-px"]
    let refused := ofCommandLine registry s words {}
    let made := ofCommandLine registry s (words ++ ["--kafka-url", "memory://b"]) {}
    (∃ e, refused.result = .error e ∧ e.exitCode = LaunchError.configCode) ∧
      (∀ make outage passes,
        ofCommandLine (registry.remade make) { s with outage, passes } words {} = refused) ∧
      Reaches registry s (words ++ ["--kafka-url", "memory://b"]) ∧
      ∃ e, made.result = .error e ∧ e.exitCode = LaunchError.runtimeCode := by
  intro entry registry s words refused made
  have hrefused : ∃ e, refused.result = .error e ∧ e.exitCode = LaunchError.configCode :=
    ⟨_, rfl, rfl⟩
  have hreaches : Reaches registry s (words ++ ["--kafka-url", "memory://b"]) := by
    have hsteps : made.steps ≠ [] := by
      intro hnone
      have hmade : made.steps.filterMap madeName? = ["x"] := by decide +kernel
      rw [hnone] at hmade
      cases hmade
    exact reaches_of_end (.inl hsteps)
  have hfails : made.result.toOption = none := by decide +kernel
  cases hresult : made.result with
  | ok result =>
    rw [hresult] at hfails
    cases hfails
  | error e =>
    obtain ⟨hsame, -, -⟩ := checked_before_connecting registry s words {}
    obtain ⟨-, hcode, -⟩ :=
      checked_before_connecting registry s (words ++ ["--kafka-url", "memory://b"]) {}
    obtain ⟨-, -, -, hblind⟩ := hsame (.inl hrefused)
    exact ⟨hrefused, hblind, hreaches, e, rfl, hcode hreaches e hresult⟩

end Launch
end LaneBus
