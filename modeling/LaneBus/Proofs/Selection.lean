import LaneBus.Launch
import LaneBus.Proofs.Binding
import LaneBus.Proofs.Occurrences

/-! # The plugin that a command line names

The plugin is looked for before the options of the command line are known, and once
they are known the command line is read in full.  The two agree on an accepted command
line exactly when no word is misread (`Launch.selection_iff`): behind the short name the
scan takes no value that begins with a hyphen, and it drops every equals sign where the
reader drops one.  A misread word makes a process run another plugin than the command
line names, or none at all (`Launch.selection_misread`).
-/
namespace LaneBus

open Command LaunchOptions

/-! ## Words that give the plugin -/

/-- Whether the scan for the plugin misreads a value behind the short name: it begins with
a hyphen, or with two equals signs. -/
def misreadsValue : List Char → Bool
  | '-' :: _ => true
  | '=' :: '=' :: _ => true
  | _ => false

/-- Whether the scan for the plugin misreads a word. -/
def misread (word : String) : Bool :=
  match Text.dropFront? "-p" word with
  | none => false
  | some value => misreadsValue value.toList

section Words

variable {word : String} {raw : List String}

theorem ofString_long_value (id : String) :
    Word.ofString ("--plugin=" ++ id) = .long "plugin" (some id) := by
  simp [Word.ofString]

theorem ofString_short (rest : String) :
    Word.ofString ("-p" ++ rest) = .short ('p' :: rest.toList) := by
  simp [Word.ofString]

/-- **The words that give the plugin**: its long name, with a value behind an equals sign or
without one, and its short name with anything behind it. -/
theorem use_plugin_eq_some (h : (Word.ofString word).use? pluginArg = some raw) :
    (word = "--plugin" ∧ raw = []) ∨ (∃ id, word = "--plugin=" ++ id ∧ raw = [id]) ∨
      ∃ rest, word = "-p" ++ rest ∧ raw = (attachedValue rest.toList).toList := by
  rw [Word.ofString] at h
  split at h
  · cases h
  · rename_i rest _ hlist
    have hsplit : rest.takeWhile (· != '=') ++ rest.dropWhile (· != '=') = rest :=
      List.takeWhile_append_dropWhile
    dsimp only at h
    split at h
    · rename_i hvalue
      simp only [Word.use?] at h
      split at h
      · rename_i hname
        have hrest : rest = "plugin".toList := by
          rw [← hsplit, hvalue, List.append_nil, ← String.toList_ofList (l := rest.takeWhile _)]
          exact congrArg String.toList (Option.some.inj hname).symm
        refine .inl ⟨String.toList_inj.mp ?_, (Option.some.inj h).symm⟩
        simp [hlist, hrest]
      · cases h
    · rename_i x value hvalue
      simp only [Word.use?] at h
      split at h
      · rename_i hname
        have hx : x = '=' := by
          have := List.head?_dropWhile_not (fun c => c != '=') rest
          rw [hvalue] at this
          simpa using this
        have hrest : rest = "plugin".toList ++ '=' :: value := by
          rw [← hsplit, hvalue, hx, ← String.toList_ofList (l := rest.takeWhile _)]
          exact congrArg (· ++ '=' :: value) (congrArg String.toList (Option.some.inj hname).symm)
        refine .inr (.inl ⟨String.ofList value, String.toList_inj.mp ?_, (Option.some.inj h).symm⟩)
        simp [hlist, hrest]
      · cases h
  · rename_i s rest _ _ hlist
    simp only [Word.use?] at h
    split at h
    · rename_i hname
      obtain rfl : 'p' = s := Option.some.inj hname
      refine .inr (.inr ⟨String.ofList rest, String.toList_inj.mp ?_, ?_⟩)
      · simp [hlist]
      · rw [String.toList_ofList]
        exact (Option.some.inj h).symm
    · cases h
  · cases h

/-! ## How the scan reads them -/

theorem attachedPlugin?_long (id : String) : attachedPlugin? ("--plugin=" ++ id) = some id := by
  rw [attachedPlugin?, Text.dropFront?_eq_some.mpr rfl]

theorem misread_long (id : String) : misread ("--plugin=" ++ id) = false := by
  simp [misread, Text.dropFront?, Text.afterFront?]

/-- Behind the short name the scan takes everything but leading equals signs, unless that
begins with a hyphen. -/
theorem attachedPlugin?_short {rest : String} {c : Char} {cs : List Char}
    (h : rest.toList = c :: cs) : attachedPlugin? ("-p" ++ rest) =
      if c = '-' then none else some (String.ofList ((c :: cs).dropWhile (· == '='))) := by
  have hlong : Text.dropFront? "--plugin=" ("-p" ++ rest) = none := by
    simp [Text.dropFront?, Text.afterFront?]
  have hshort : Text.dropFront? "-p" ("-p" ++ rest) = some rest :=
    Text.dropFront?_eq_some.mpr rfl
  simp only [attachedPlugin?, hlong, hshort, h]
  split
  · cases ‹c :: cs = []›
  · simp_all
  · simp_all

theorem misread_short (rest : String) : misread ("-p" ++ rest) = misreadsValue rest.toList := by
  simp only [misread, Text.dropFront?_eq_some.mpr rfl]

/-- A list without its leading equals signs is another one than the list without the first
when two are there. -/
theorem ofList_dropWhile_ne (cs : List Char) :
    String.ofList (('=' :: '=' :: cs).dropWhile (· == '=')) ≠ String.ofList ('=' :: cs) := by
  intro heq
  have hlength := congrArg (List.length ∘ String.toList) heq
  have hle : (cs.dropWhile (· == '=')).length ≤ cs.length :=
    (List.dropWhile_suffix _).length_le
  simp only [Function.comp_apply, String.toList_ofList, List.dropWhile_cons, BEq.rfl, if_true,
    List.length_cons] at hlength
  omega

/-- **What the scan takes behind the short name** is what the reader takes exactly when it is
not misread. -/
theorem attachedPlugin?_eq_iff {rest value : String} (h : attachedValue rest.toList = some value) :
    attachedPlugin? ("-p" ++ rest) = some value ↔ misread ("-p" ++ rest) = false := by
  rw [misread_short]
  cases hlist : rest.toList with
  | nil => simp [hlist, attachedValue] at h
  | cons c cs =>
    rw [hlist] at h
    rw [attachedPlugin?_short hlist]
    by_cases hhyphen : c = '-'
    · simp [hhyphen, misreadsValue]
    · by_cases hequals : c = '='
      · subst hequals
        obtain rfl : String.ofList cs = value := Option.some.inj h
        cases cs with
        | nil => simp [misreadsValue]
        | cons d cs =>
          by_cases htwo : d = '='
          · subst htwo
            simpa [misreadsValue] using ofList_dropWhile_ne cs
          · simp [misreadsValue, htwo]
      · have hvalue : attachedValue (c :: cs) = some (String.ofList (c :: cs)) := by
          rw [attachedValue]
          · simp
          · exact fun _ heq => hequals (List.cons.inj heq).1
        rw [hvalue] at h
        obtain rfl := Option.some.inj h
        simp [misreadsValue, hhyphen, hequals]

/-- A word that gives the plugin its value gives it to the scan exactly when it is not
misread. -/
theorem use_plugin_value (hbare : ¬(word = "--plugin" ∨ word = "-p"))
    (h : (Word.ofString word).use? pluginArg = some raw) :
    ∃ value, raw = [value] ∧ (attachedPlugin? word = some value ↔ misread word = false) := by
  rcases use_plugin_eq_some h with ⟨rfl, -⟩ | ⟨id, rfl, rfl⟩ | ⟨rest, rfl, rfl⟩
  · exact absurd (.inl rfl) hbare
  · exact ⟨id, rfl, by simp [attachedPlugin?_long, misread_long]⟩
  · cases hvalue : attachedValue rest.toList with
    | none =>
      have hnil : rest = "" := by
        rw [attachedValue.eq_def] at hvalue
        split at hvalue
        · exact String.toList_inj.mp ‹_›
        · cases hvalue
        · cases hvalue
      exact absurd (.inr (by rw [hnil]; rfl)) hbare
    | some value => exact ⟨value, rfl, attachedPlugin?_eq_iff hvalue⟩

/-- A word that does not give the plugin gives the scan nothing. -/
theorem attachedPlugin?_of_use_eq_none (h : (Word.ofString word).use? pluginArg = none) :
    attachedPlugin? word = none ∧ misread word = false := by
  have hshort : Text.dropFront? "-p" word = none := by
    cases hdrop : Text.dropFront? "-p" word with
    | none => rfl
    | some rest =>
      rw [Text.dropFront?_eq_some.mp hdrop, ofString_short] at h
      cases h
  have hlong : Text.dropFront? "--plugin=" word = none := by
    cases hdrop : Text.dropFront? "--plugin=" word with
    | none => rfl
    | some id =>
      rw [Text.dropFront?_eq_some.mp hdrop, ofString_long_value] at h
      cases h
  simp [attachedPlugin?, misread, hlong, hshort]

/-- Words that do not give the plugin select none. -/
theorem selectPlugin_of_unused {words : List String}
    (h : BeforeMark (fun word => (Word.ofString word).use? pluginArg = none) words) :
    selectPlugin words = none ∧ BeforeMark (fun word => misread word = false) words := by
  induction words with
  | nil => exact ⟨rfl, beforeMark_nil⟩
  | cons word rest ih =>
    by_cases hmark : word = "--"
    · subst hmark
      exact ⟨rfl, beforeMark_mark⟩
    · obtain ⟨huse, hrest⟩ := (beforeMark_cons hmark).mp h
      obtain ⟨hattached, hread⟩ := attachedPlugin?_of_use_eq_none huse
      obtain ⟨hselect, hreads⟩ := ih hrest
      have hbare : ¬(word = "--plugin" ∨ word = "-p") := by
        rintro (rfl | rfl) <;> cases huse
      refine ⟨?_, (beforeMark_cons hmark).mpr ⟨hread, hreads⟩⟩
      rw [selectPlugin, if_neg hmark, if_neg hbare, hattached]
      exact hselect

end Words

/-! ## The scan beside the reader -/

/-- Behind a use of the plugin's option the scan finds no other one. -/
theorem selectPlugin_of_given {c : Command} {env : Environment} {p : Progress}
    {words raw : List String} {m : Matches} (hc : c.Owns pluginArg) (hs : p.Sound c pluginArg)
    (ht : p.trailing = false) (hgiven : p.given pluginArg = [raw])
    (h : c.takeAll env p words = .ok m) : selectPlugin words = none := by
  by_cases hraw : raw = []
  · subst hraw
    obtain ⟨value, rest, rfl, hplain, -, hunused⟩ := takeAll_open hc hs ht hgiven h
    refine (selectPlugin_of_unused ((beforeMark_cons ?_).mpr ⟨?_, hunused⟩)).1
    · rintro rfl
      cases hplain
    · rw [hplain]
      rfl
  · obtain ⟨-, hunused⟩ := takeAll_holding hc hs ht hraw hgiven h
    exact (selectPlugin_of_unused hunused).1

/-- **The scan beside the reader.**  On a command line that is accepted the two take the
same plugin exactly when no word before the mark is misread.  When the scan finds none,
only the options of every process are known, so that no cluster can hide the plugin. -/
theorem selectPlugin_eq_iff {c : Command} {env : Environment} {p : Progress} {words : List String}
    {m : Matches} (hc : c.Owns pluginArg) (hs : p.Sound c pluginArg) (ht : p.trailing = false)
    (hgiven : p.given pluginArg = [])
    (hshort : selectPlugin words = none →
      ∀ b ∈ c.allArgs, b.short.isSome → b = pluginArg ∨ b.action = .help)
    (h : c.takeAll env p words = .ok m) :
    selectPlugin words = m.text? pluginId ↔
      BeforeMark (fun word => misread word = false) words := by
  have hvalue {value : String} (hend : m.values.get? pluginArg.id = some [value]) :
      m.text? pluginId = some value := by
    rw [Matches.text?, Matches.texts, show m.values.get? pluginId = some [value] from hend]
    rfl
  have habsent (hend : m.values.get? pluginArg.id = none) : m.text? pluginId = none := by
    rw [Matches.text?, Matches.texts, show m.values.get? pluginId = none from hend]
    rfl
  induction words generalizing p with
  | nil =>
    rw [takeAll] at h
    split at h
    · cases h
    · cases h
      obtain ⟨hpending, -, -, hsame⟩ := settle_given hc hs ‹_›
      rw [Progress.given_of_settled hpending, hgiven] at hsame
      exact iff_of_true (habsent (by simpa using hsame)).symm beforeMark_nil
  | cons word rest ih =>
    rw [takeAll] at h
    split at h
    · cases h
    · rename_i p' htake
      by_cases hmark : word = "--"
      · subst hmark
        have hp' : { p with trailing := true } = p' := by
          rw [take, ht] at htake
          exact Except.ok.inj htake
        subst hp'
        obtain ⟨hend, -⟩ := takeAll_trailing hc (p := { p with trailing := true })
          ⟨hs.known, hs.filled⟩ rfl h
        have hsame : Progress.given { p with trailing := true } pluginArg = [] := hgiven
        exact iff_of_true (habsent (by simpa [hsame] using hend)).symm beforeMark_mark
      · obtain ⟨htrailing, hs', -, hadds⟩ := take_given hc hs ht hmark htake
        obtain ⟨more, hmore, huse, hother⟩ := hadds (by simp [hgiven])
        rw [hgiven, List.nil_append] at hmore
        rw [beforeMark_cons hmark]
        cases hword : (Word.ofString word).use? pluginArg with
        | some raw =>
          have hgiven' : p'.given pluginArg = [raw] := hmore.trans (huse raw hword)
          by_cases hbare : word = "--plugin" ∨ word = "-p"
          · -- both take the next word
            have hnil : raw = [] ∧ misread word = false := by
              rcases hbare with rfl | rfl <;> exact ⟨(Option.some.inj hword).symm, rfl⟩
            obtain ⟨value, rest', rfl, hplain, hend, hunused⟩ :=
              takeAll_open hc hs' htrailing (hnil.1 ▸ hgiven') h
            have hfirst : value ≠ "--" := by
              rintro rfl
              cases hplain
            have hread : misread value = false :=
              (attachedPlugin?_of_use_eq_none (by rw [hplain]; rfl)).2
            rw [selectPlugin, if_neg hmark, if_pos hbare, hvalue hend, beforeMark_cons hfirst]
            exact iff_of_true rfl ⟨hnil.2, hread, (selectPlugin_of_unused hunused).2⟩
          · obtain ⟨value, rfl, hiff⟩ := use_plugin_value hbare hword
            obtain ⟨hend, hunused⟩ := takeAll_holding hc hs' htrailing (by simp) hgiven' h
            obtain ⟨hselect, hreads⟩ := selectPlugin_of_unused hunused
            have hfound : selectPlugin (word :: rest) = attachedPlugin? word := by
              rw [selectPlugin, if_neg hmark, if_neg hbare, hselect]
              cases attachedPlugin? word <;> rfl
            rw [hfound, hvalue hend, hiff]
            exact (and_iff_left hreads).symm
        | none =>
          obtain ⟨hattached, hread⟩ := attachedPlugin?_of_use_eq_none hword
          have hbare : ¬(word = "--plugin" ∨ word = "-p") := by
            rintro (rfl | rfl) <;> cases hword
          have hsame : selectPlugin (word :: rest) = selectPlugin rest := by
            rw [selectPlugin, if_neg hmark, if_neg hbare, hattached]
          rw [hsame] at hshort ⊢
          have hnil : more = [] := by
            by_cases hcluster : ∃ cluster, Word.ofString word = .short cluster
            · obtain ⟨cluster, hcluster⟩ := hcluster
              cases hrest : selectPlugin rest with
              | none =>
                rw [hcluster] at hword
                exact absurd htake (take_short_ne_ok (hshort hrest) ht hcluster hword)
              | some id =>
                -- a use inside the cluster would be the only one
                have hlength := takeAll_given_length hc hs' h
                rw [hmore] at hlength
                rcases more with _ | ⟨raw, _ | ⟨raw', others⟩⟩
                · rfl
                · rw [selectPlugin_of_given hc hs' htrailing hmore h] at hrest
                  cases hrest
                · simp at hlength
            · exact hother hword fun cluster hcl => hcluster ⟨cluster, hcl⟩
          exact (ih hs' htrailing (hmore.trans hnil) hshort h).trans (and_iff_right hread).symm

/-! ## Options that are bound together -/

/-- The bundles of every process. -/
def Launch.commonBundles : List Bundle := [LaunchOptions.bundle, LogOptions.bundle, BusOptions.bundle]

/-- Of the options of every process only the plugin's and help have short names. -/
theorem Launch.commonBundles_short : ∀ b ∈ (Binder.commandOf "" commonBundles).allArgs,
    b.short.isSome → b = pluginArg ∨ b.action = .help := by
  decide

theorem Launch.commonBinder_eq (env : Environment) :
    commonBinder env = .ok { program, bundles := commonBundles, env } := rfl

/-- Arguments of bundles that do not clash have different ids. -/
theorem Bundle.id_ne_of_not_clashes {b other : Bundle} (h : ¬b.Clashes other) {a a' : Arg}
    (ha : a ∈ b.args) (ha' : a' ∈ other.args) : a.id ≠ a'.id := fun hid =>
  h ⟨_, .arg a a' _ ha ha' (.id hid)⟩

/-- Bundles that are bound come behind those that are bound already, and clash with none
of them. -/
theorem Binder.bindAll_eq {x y : Binder} {bundles : List Bundle} (h : x.bindAll bundles = .ok y) :
    ∃ added, y.bundles = x.bundles ++ added ∧ y.program = x.program ∧ y.env = x.env ∧
      ∀ bound ∈ x.bundles, ∀ b ∈ added, ¬bound.Clashes b := by
  induction bundles generalizing x with
  | nil =>
    cases h
    exact ⟨[], by simp, rfl, rfl, fun _ _ _ hb => by cases hb⟩
  | cons b rest ih =>
    have hcases := x.bind_cases b
    rw [bindAll] at h
    generalize x.bind b = outcome at h hcases
    cases hcases with
    | again _ => exact ih h
    | added _ hfree =>
      obtain ⟨added, hbundles, hprogram, henv, hmore⟩ := ih h
      refine ⟨b :: added, by simpa using hbundles, hprogram, henv, fun bound hbound b' hb' => ?_⟩
      rcases List.mem_cons.mp hb' with rfl | hb'
      · exact hfree bound hbound
      · exact hmore bound (List.mem_append_left _ hbound) b' hb'
    | refused before after bound shown _ _ _ _ => cases h

/-- The option of the plugin is a command line's own when nothing that is bound later
clashes with the options of every process. -/
theorem owns_plugin {program : String} {added : List Bundle}
    (hfree : ∀ b ∈ added, ¬LaunchOptions.bundle.Clashes b) :
    (Binder.commandOf program (Launch.commonBundles ++ added)).Owns pluginArg where
  action := rfl
  type := rfl
  delimiter := rfl
  env := rfl
  default := rfl
  named := rfl
  byLong := by
    rintro name hname
    obtain rfl : "plugin" = name := Option.some.inj hname
    rfl
  byShort := by
    rintro s hs
    obtain rfl : 'p' = s := Option.some.inj hs
    rfl
  unique := by
    intro b hb hid
    have hcommon : ∀ b ∈ Launch.commonBundles.flatMap Bundle.args ++ [Arg.helpArg],
        b.id = pluginId → b = pluginArg := by decide
    have hmem : b ∈ (Launch.commonBundles ++ added).flatMap Bundle.args ++ [Arg.helpArg] := hb
    rw [List.flatMap_append, List.mem_append, List.mem_append] at hmem
    rcases hmem with (hold | hnew) | hhelp
    · exact hcommon b (List.mem_append_left _ hold) hid
    · obtain ⟨other, hother, hb⟩ := List.mem_flatMap.mp hnew
      have hplugin : pluginArg ∈ LaunchOptions.bundle.args := List.mem_cons_self
      exact absurd hid.symm (Bundle.id_ne_of_not_clashes (hfree other hother) hplugin hb)
    · exact hcommon b (List.mem_append_right _ hhelp) hid

namespace Launch

variable {registry : Registry} {env : Environment} {argv : List String}
  {chosen : Option PluginEntry} {parsed : Binder.Parsed}

/-- **The full reading of a command line**: the options of every process are bound, then those
of the plugin that the scan has found, and all words are read. -/
inductive Reads (registry : Registry) (env : Environment) (argv : List String) :
    Option PluginEntry → Binder.Parsed → Prop where
  | intro {common binder : Binder} {chosen : Option PluginEntry} {parsed : Binder.Parsed}
    (hcommon : commonBinder env = .ok common)
    (hselected : selected registry common argv = .ok chosen)
    (hbinder : common.bindAll (chosen.elim [] PluginEntry.bundles) = .ok binder)
    (hparsed : binder.parse argv = .ok parsed) :
    Reads registry env argv chosen parsed

/-- The plugin that a command line names when it is read in full. -/
def named (parsed : Binder.Parsed) : Option String := (LaunchOptions.ofMatches parsed.found).plugin

theorem configure_of_reads (h : Reads registry env argv chosen parsed) (fresh : String) :
    configure registry env fresh argv = requested parsed.binder parsed fresh chosen := by
  cases h with
  | @intro common binder _ _ hcommon hselected hbinder hparsed =>
    have hbinder' : parsed.binder = binder := by
      rw [Binder.parse] at hparsed
      split at hparsed
      · cases hparsed
      · cases hparsed
        rfl
    simp only [configure, hcommon, hselected, hbinder, hparsed, hbinder']

theorem valuesOf_error {α : Type} {b : Bundle} {read : Matches → α} {e : LaunchError}
    (h : valuesOf parsed b read = .error e) : ∃ reason, e = .options reason := by
  rw [valuesOf] at h
  split at h
  · rename_i reason _
    exact ⟨reason, (Except.error.inj h).symm⟩
  · cases h

/-- What is set up is what was asked for, and a set-up that fails does not ask for a plugin. -/
theorem setup_eq (binder : Binder) (fresh : String) (entry : PluginEntry)
    (parsed : Binder.Parsed) :
    (∀ x, setup binder parsed fresh entry = .ok x → x.entry = entry ∧ x.parsed = parsed) ∧
      ∀ usage, setup binder parsed fresh entry ≠ .error (.missingPlugin usage) := by
  rw [setup]
  cases hlog : valuesOf parsed LogOptions.bundle LogOptions.ofMatches with
  | error e =>
    obtain ⟨reason, rfl⟩ := valuesOf_error hlog
    exact ⟨fun x h => (by cases h), fun usage h => by cases h⟩
  | ok log =>
    cases hbus : valuesOf parsed BusOptions.bundle BusOptions.ofMatches with
    | error e =>
      obtain ⟨reason, rfl⟩ := valuesOf_error hbus
      exact ⟨fun x h => (by cases h), fun usage h => by cases h⟩
    | ok bus =>
      simp only [bind, Except.bind]
      split
      · exact ⟨fun x h => (by cases h), fun usage h => by cases h⟩
      · split
        · exact ⟨fun x h => (by cases h), fun usage h => by cases h⟩
        · exact ⟨fun x h => (by cases h; exact ⟨rfl, rfl⟩), fun usage h => by cases h⟩

/-- What is started is the plugin that was chosen, and one is only missed when none was. -/
theorem requested_eq {binder : Binder} {fresh : String} :
    (∀ x, requested binder parsed fresh chosen = .ok (.start x) →
      chosen = some x.entry ∧ x.parsed = parsed) ∧
      ∀ usage, requested binder parsed fresh chosen = .error (.missingPlugin usage) →
        chosen = none := by
  rw [requested.eq_def]
  cases hvalues : valuesOf parsed LaunchOptions.bundle LaunchOptions.ofMatches with
  | error e =>
    obtain ⟨reason, rfl⟩ := valuesOf_error hvalues
    exact ⟨fun x h => (by cases h), fun usage h => by cases h⟩
  | ok options =>
    simp only [bind, Except.bind]
    split
    · exact ⟨fun x h => (by cases h), fun usage h => by cases h⟩
    · split
      · exact ⟨fun x h => (by cases h), fun usage h => by cases h⟩
      · cases chosen with
        | none => exact ⟨fun x h => (by cases h), fun usage h => rfl⟩
        | some entry =>
          obtain ⟨hstart, hmissing⟩ := setup_eq binder fresh entry parsed
          simp only [Functor.map, Except.map]
          split
          · rename_i e hsetup
            refine ⟨fun x h => (by cases h), fun usage h => ?_⟩
            cases h
            exact absurd hsetup (hmissing usage)
          · rename_i y hsetup
            refine ⟨fun x h => ?_, fun usage h => by cases h⟩
            cases h
            obtain ⟨hentry, hparsed⟩ := hstart y hsetup
            exact ⟨congrArg some hentry.symm, hparsed⟩

/-- Nothing is started unless the command line has been read, and what is started is what the
scan has found. -/
theorem reads_of_start {fresh : String} {x : Setup}
    (h : configure registry env fresh argv = .ok (.start x)) :
    Reads registry env argv (some x.entry) x.parsed := by
  simp only [configure] at h
  split at h
  · cases h
  · rename_i common hcommon
    split at h
    · cases h
    · rename_i chosen hselected
      split at h
      · cases h
      · rename_i binder hbinder
        split at h
        · cases h
        · rename_i parsed hparsed
          obtain ⟨rfl, rfl⟩ := requested_eq.1 x h
          exact .intro hcommon hselected hbinder hparsed

/-- Opening the log makes no plugin. -/
theorem made_not_mem_openLog {x : Setup} {s : Surroundings} {opened : List LaunchStep}
    {files : FileTree} (h : x.openLog s = (.ok opened, files)) (entry : PluginEntry)
    (context : PluginContext) : .made entry context ∉ opened := by
  rw [Setup.openLog] at h
  split at h
  · cases h
    exact List.not_mem_nil
  · split at h
    · cases h
    · split at h
      · cases h
      · cases h
        intro hmem
        simp at hmem

/-- The plugin that is made is the one that was set up. -/
theorem made_mem_makePlugin {x : Setup} {s : Surroundings} {entry : PluginEntry}
    {context : PluginContext} (h : .made entry context ∈ (x.makePlugin s).2) :
    x.entry = entry ∧ context.parsed = x.parsed := by
  rw [Setup.makePlugin] at h
  split at h
  · cases h
  · have hmem : .made entry context ∈
        [LaunchStep.connected x.identity, .made x.entry (x.context s ‹Connection›)] := by
      dsimp only at h
      split at h <;> exact h
    simp only [List.mem_cons, LaunchStep.made.injEq, reduceCtorEq, false_or, List.not_mem_nil,
      or_false] at hmem
    exact ⟨hmem.1.symm, by rw [hmem.2]; rfl⟩

/-- A plugin is only made once it has been set up. -/
theorem configure_of_made {s : Surroundings} {buses : Buses} {entry : PluginEntry}
    {context : PluginContext}
    (h : .made entry context ∈ (ofCommandLine registry s argv buses).steps) :
    ∃ x, configure registry s.env s.freshId argv = .ok (.start x) ∧ x.entry = entry ∧
      context.parsed = x.parsed := by
  rw [ofCommandLine] at h
  split at h
  · cases h
  · cases h
  · cases h
  · rename_i x hconfigure
    refine ⟨x, hconfigure, ?_⟩
    rw [start] at h
    split at h
    · cases h
    · rename_i opened files hopened
      have hfresh := made_not_mem_openLog hopened entry context
      split at h
      · rename_i e steps hmake
        have hsteps : (x.makePlugin s).2 = steps := by rw [hmake]
        exact made_mem_makePlugin (hsteps ▸ (List.mem_append.mp h).resolve_left hfresh)
      · rename_i plugin steps hmake
        have hsteps : (x.makePlugin s).2 = steps := by rw [hmake]
        have hmem : .made entry context ∈ opened ++ steps := by
          simpa using h
        exact made_mem_makePlugin (hsteps ▸ (List.mem_append.mp hmem).resolve_left hfresh)

/-- What is chosen is what the registry has for the plugin that the scan finds. -/
theorem selected_eq {binder : Binder} (h : selected registry binder argv = .ok chosen) :
    (preselect argv = none ∧ chosen = none) ∨
      ∃ id entry, preselect argv = some id ∧ registry.find id = .ok entry ∧
        chosen = some entry := by
  rw [selected] at h
  split at h
  · cases h
    exact .inl ⟨‹_›, rfl⟩
  · split at h
    · cases h
    · cases h
      exact .inr ⟨_, _, ‹_›, ‹_›, rfl⟩

/-- On a command line that is read in full, the plugin that the scan finds is the one that it
names exactly when no word before the mark is misread. -/
theorem preselect_eq_named_iff (h : Reads registry env argv chosen parsed) :
    preselect argv = named parsed ↔
      BeforeMark (fun word => misread word = false) argv.tail := by
  cases h with
  | @intro common binder _ _ hcommon hselected hbinder hparsed =>
    obtain rfl := Except.ok.inj ((commonBinder_eq env).symm.trans hcommon)
    obtain ⟨added, hbundles, hprogram, henv, hfree⟩ := Binder.bindAll_eq hbinder
    have hown (program : String) : (Binder.commandOf program binder.bundles).Owns pluginArg := by
      rw [hbundles]
      exact owns_plugin (hfree LaunchOptions.bundle List.mem_cons_self)
    have hshort : preselect argv = none → ∀ b ∈ (Binder.commandOf "" binder.bundles).allArgs,
        b.short.isSome → b = pluginArg ∨ b.action = .help := by
      intro hnone
      rcases selected_eq hselected with ⟨-, rfl⟩ | ⟨id, entry, hid, -, -⟩
      · cases hbinder
        exact commonBundles_short
      · rw [hid] at hnone
        cases hnone
    rw [Binder.parse] at hparsed
    split at hparsed
    · cases hparsed
    · rename_i found hparse
      cases hparsed
      obtain ⟨program, m, htake, hvalue⟩ := parse_value (hown binder.program) hparse
      have htext : found.text? pluginId = m.text? pluginId :=
        congrArg (fun texts => (Option.getD texts []).head?) hvalue
      have hiff := selectPlugin_eq_iff (hown program) Progress.sound_start rfl
        Progress.given_start hshort htake
      rw [← htext] at hiff
      exact hiff

/-- **The plugin that runs.**  On a command line that is read in full, the scan finds the
plugin that is named exactly when no word before the mark is misread.  Then a plugin that is
named is not missed, and the plugin that is made is the one that the registry has for the
name. -/
theorem selection_iff (registry : Registry) (env : Environment) (argv : List String) :
    (∀ chosen parsed, Reads registry env argv chosen parsed →
      (preselect argv = named parsed ↔
        BeforeMark (fun word => misread word = false) argv.tail)) ∧
    (BeforeMark (fun word => misread word = false) argv.tail →
      (∀ chosen parsed id, Reads registry env argv chosen parsed → named parsed = some id →
        ∀ fresh usage, configure registry env fresh argv ≠ .error (.missingPlugin usage)) ∧
      ∀ (s : Surroundings) buses entry context, s.env = env →
        .made entry context ∈ (ofCommandLine registry s argv buses).steps →
        ∃ id, named context.parsed = some id ∧ registry.find id = .ok entry) := by
  refine ⟨fun chosen parsed h => preselect_eq_named_iff h, fun hread => ⟨?_, ?_⟩⟩
  · intro chosen parsed id h hid fresh usage hmissing
    have hsame : preselect argv = some id := ((preselect_eq_named_iff h).mpr hread).trans hid
    rw [configure_of_reads h] at hmissing
    obtain rfl := requested_eq.2 usage hmissing
    cases h with
    | intro hcommon hselected hbinder hparsed =>
      rcases selected_eq hselected with ⟨hnone, -⟩ | ⟨_, _, -, -, hchosen⟩
      · rw [hnone] at hsame
        cases hsame
      · cases hchosen
  · rintro s buses entry context rfl hmade
    obtain ⟨x, hstart, rfl, hparsed⟩ := configure_of_made hmade
    have h := reads_of_start hstart
    rw [hparsed, ← (preselect_eq_named_iff h).mpr hread]
    cases h with
    | intro hcommon hselected hbinder hparsed =>
      rcases selected_eq hselected with ⟨-, hnone⟩ | ⟨id, entry, hid, hfind, hchosen⟩
      · cases hnone
      · cases hchosen
        exact ⟨id, hid, hfind⟩

/-- The name of the plugin that a step makes. -/
def madeName? : LaunchStep → Option String
  | .made entry _ => some entry.name
  | _ => none

/-- **A misread word** makes a process run a plugin that the command line does not name, or
miss the plugin that it names. -/
theorem selection_misread :
    let stub (name : String) : PluginEntry :=
      { name, version := "1", description := "", make := fun _ => .ok (.task fun b => (.ok (), b, [])) }
    let registry : Registry := { entries := [stub "x", stub "=x", stub "-x"] }
    let s : Surroundings := { host := "h", freshId := "1", passes := [] }
    let line (word : String) : List String := ["f4sten", word, "--kafka-url", "memory://b"]
    ((∃ parsed, Reads registry s.env (line "-p==x") (some (stub "x")) parsed ∧
        named parsed = some "=x") ∧
      registry.find "=x" = .ok (stub "=x") ∧
      (ofCommandLine registry s (line "-p==x") {}).steps.filterMap madeName? = ["x"]) ∧
    (∃ parsed, Reads registry s.env (line "-p-x") none parsed ∧ named parsed = some "-x") ∧
      registry.find "-x" = .ok (stub "-x") ∧
      ∃ usage, configure registry s.env s.freshId (line "-p-x") = .error (.missingPlugin usage) := by
  intro stub registry s line
  exact ⟨⟨⟨_, .intro rfl rfl rfl rfl, rfl⟩, rfl, by decide +kernel⟩,
    ⟨_, .intro rfl rfl rfl rfl, rfl⟩, rfl, _, by rfl⟩

end Launch
end LaneBus
