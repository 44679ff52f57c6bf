import LaneBus.Proofs.Occurrences

/-! # What a command line is refused for

A command line that is not accepted is complained about once, and there is little that the
complaint can be about (`Command.Fault`): an argument that the command line has, the help
option with a value, an option that nobody declares, or a word that has no place.  One lemma
for each step of the reader shows what it can complain about and that what is left pending
is an argument of the command line; `Command.parse_fault` follows by induction over the
words, and then over the arguments that the environment supplies.
-/
namespace LaneBus

/-- A complaint about an argument is about the argument as it is shown. -/
theorem Arg.subject_of_check {a : Arg} {value : String} {e : Complaint}
    (h : a.check value = .error e) : e.subject? = some a.display := by
  rw [Arg.check] at h
  split at h
  · cases h
  · split at h
    · cases h
      rfl
    · cases h
  · split at h
    · cases h
      rfl
    · split at h
      · cases h
      · cases h
        rfl
  · split at h
    · cases h
      rfl
    · cases h
  · split at h
    · cases h
    · split at h
      · cases h
        rfl
      · cases h
        rfl

theorem Arg.subject_of_checkAll {a : Arg} {values : List String} {e : Complaint}
    (h : a.checkAll values = .error e) : e.subject? = some a.display := by
  induction values with
  | nil => cases h
  | cons value rest ih =>
    rw [Arg.checkAll] at h
    split at h
    · cases h
      exact Arg.subject_of_check ‹_›
    · exact ih h

/-- The name in a long word has no equals sign. -/
theorem Word.not_mem_of_ofString_long {text name : String} {value : Option String}
    (h : Word.ofString text = .long name value) : '=' ∉ name.toList := by
  have hcut (rest : List Char) : '=' ∉ rest.takeWhile (· != '=') := fun hmem => by
    simpa using List.all_eq_true.mp List.all_takeWhile '=' hmem
  rw [Word.ofString] at h
  split at h
  · cases h
  · rename_i rest _ _
    dsimp only at h
    split at h
    · cases h
      simpa using hcut rest
    · cases h
      simpa using hcut rest
  · cases h
  · cases h

namespace Command

/-- What a command line can be refused for. -/
inductive Fault (c : Command) (argv : List String) : Complaint → Prop where
  /-- The help text was asked for. -/
  | help (text : String) : Fault c argv (.help text)
  /-- Something is wrong with an argument of the command line. -/
  | argument (a : Arg) (e : Complaint) (ha : a ∈ c.args) (h : e.subject? = some a.display) :
    Fault c argv e
  /-- The help option, which no argument replaces, has a value. -/
  | helpValue (value : String) (hfree : ∀ a ∈ c.args, a.long ≠ Arg.helpArg.long) :
    Fault c argv (.unneededValue Arg.helpArg.display value)
  /-- No argument has the long name. -/
  | long (name : String) (hname : '=' ∉ name.toList) (hfree : ∀ a ∈ c.args, a.long ≠ some name) :
    Fault c argv (.unknownArgument ("--" ++ name))
  /-- No argument has the short name. -/
  | short (s : Char) (hfree : ∀ a ∈ c.args, a.short ≠ some s) :
    Fault c argv (.unknownArgument ("-" ++ s.toString))
  /-- There is no place for a word that names no option or stands behind the mark. -/
  | word (text : String) (h : text ∈ argv)
    (hplain : Word.ofString text = .plain text ∨ "--" ∈ argv) :
    Fault c argv (.unknownArgument text)

/-- What is pending is an argument of the command line, and words are only positional behind
the mark. -/
structure Progress.Known (c : Command) (argv : List String) (p : Progress) : Prop where
  pending : ∀ a raw, p.pending = some (a, raw) → a ∈ c.allArgs
  trailing : p.trailing = true → "--" ∈ argv

/-- What a step of the reader comes to: an argument of the command line is left pending, if
any is, or the step complains. -/
inductive Stepped (c : Command) (argv : List String) : Except Complaint Progress → Prop where
  | ok (p : Progress) (h : p.Known c argv) : Stepped c argv (.ok p)
  | error (e : Complaint) (h : c.Fault argv e) : Stepped c argv (.error e)

section

variable {c : Command} {env : Environment} {argv : List String} {p : Progress} {a : Arg}
  {outcome : Except Complaint Progress}

theorem Stepped.fault {e : Complaint} (h : c.Stepped argv outcome) (heq : outcome = .error e) :
    c.Fault argv e := by
  subst heq
  cases h with
  | error _ hfault => exact hfault

theorem Stepped.known (h : c.Stepped argv outcome) (heq : outcome = .ok p) : p.Known c argv := by
  subst heq
  cases h with
  | ok _ hp => exact hp

theorem mem_allArgs : a ∈ c.allArgs ↔ a ∈ c.args ∨ a = Arg.helpArg := by
  simp [allArgs]

/-- An occurrence of an argument is refused for what is wrong with it, or shows help. -/
theorem accept_fault {m : Matches} {raw : List String} {e : Complaint} (ha : a ∈ c.allArgs)
    (h : c.accept env m a raw = .error e) : c.Fault argv e := by
  rcases mem_allArgs.mp ha with ha | rfl
  · rw [accept] at h
    split at h
    · cases h
      exact .argument a _ ha rfl
    · dsimp only at h
      split at h
      · cases h
        exact .help _
      · cases h
      · split at h <;> cases h
        exact .argument a _ ha rfl
      · split at h
        · cases h
          exact .argument a _ ha rfl
        · split at h <;> cases h
          exact .argument a _ ha (Arg.subject_of_checkAll ‹_›)
      · split at h <;> cases h
        exact .argument a _ ha (Arg.subject_of_checkAll ‹_›)
  · cases h
    exact .help _

/-- Settling leaves nothing pending. -/
theorem settle_stepped (hp : p.Known c argv) :
    c.Stepped argv (c.settle env p) := by
  rw [settle]
  split
  · exact .ok p hp
  · rename_i a raw hpending
    split
    · exact .error _ (accept_fault (hp.pending a raw hpending) ‹_›)
    · exact .ok _ ⟨fun b raw h => (by cases h), hp.trailing⟩

theorem name_stepped (hp : p.Known c argv)
    (ha : a ∈ c.allArgs) (attached : Option String) :
    c.Stepped argv (c.name env p a attached) := by
  have hsettle : c.Stepped argv (c.settle env p) := settle_stepped hp
  rw [name]
  split
  · exact .error _ (hsettle.fault ‹_›)
  · rename_i p₁ heq
    have hp₁ : p₁.Known c argv := hsettle.known heq
    split
    · refine .ok _ ⟨fun b raw h => ?_, hp₁.trailing⟩
      cases h
      exact ha
    · split
      · exact .error _ (accept_fault ha ‹_›)
      · exact .ok _ ⟨hp₁.pending, hp₁.trailing⟩

/-- A long name is unknown, or names an argument; only the help option can be given a value
that is its own fault. -/
theorem takeLong_stepped (hp : p.Known c argv)
    {long : String} (hlong : '=' ∉ long.toList) (attached : Option String) :
    c.Stepped argv (c.takeLong env p long attached) := by
  rw [takeLong]
  split
  · rename_i hfind
    refine .error _ (.long long hlong fun a ha => ?_)
    simpa using List.find?_eq_none.mp hfind a (List.mem_append_left _ ha)
  · rename_i a hfind
    obtain ⟨ha, hname⟩ := mem_of_longArg? hfind
    split
    · rename_i value _
      refine .error _ ?_
      cases hown : c.args.find? fun b => b.long == some long with
      | some b =>
        have hab : a = b := by
          rw [longArg?, allArgs, List.find?_append, hown] at hfind
          exact (Option.some.inj hfind).symm
        exact .argument a _ (hab ▸ List.mem_of_find?_eq_some hown) rfl
      | none =>
        have hfree : ∀ b ∈ c.args, b.long ≠ a.long := fun b hb => by
          simpa [hname] using List.find?_eq_none.mp hown b hb
        rcases mem_allArgs.mp ha with hargs | rfl
        · exact absurd rfl (hfree a hargs)
        · exact .helpValue value hfree
    · exact name_stepped hp ha _

theorem takeShort_stepped (hp : p.Known c argv)
    (cluster : List Char) : c.Stepped argv (c.takeShort env p cluster) := by
  induction cluster generalizing p with
  | nil => exact .ok p hp
  | cons s rest ih =>
    rw [takeShort]
    split
    · rename_i hfind
      refine .error _ (.short s fun a ha => ?_)
      simpa using List.find?_eq_none.mp hfind a (List.mem_append_left _ ha)
    · rename_i a hfind
      have ha := (mem_of_shortArg? hfind).1
      split
      · exact name_stepped hp ha _
      · have hname : c.Stepped argv (c.name env p a none) := name_stepped hp ha none
        split
        · exact .error _ (hname.fault ‹_›)
        · exact ih (hname.known ‹_›)

theorem takePositional_stepped (hp : p.Known c argv) {text : String} (htext : text ∈ argv)
    (hplain : Word.ofString text = .plain text ∨ "--" ∈ argv) :
    c.Stepped argv (c.takePositional env p text) := by
  have hsettle : c.Stepped argv (c.settle env p) := settle_stepped hp
  rw [takePositional]
  split
  · exact .error _ (.word text htext hplain)
  · rename_i a hget
    have ha : a ∈ c.args := (List.mem_filter.mp (List.mem_of_getElem? hget)).1
    split
    · exact .error _ (hsettle.fault ‹_›)
    · rename_i p₁ heq
      have hp₁ : p₁.Known c argv := hsettle.known heq
      refine .ok _ ⟨fun b raw h => ?_, hp₁.trailing⟩
      cases h
      exact List.mem_append_left _ ha

theorem takePlain_stepped (hp : p.Known c argv) {text : String} (htext : text ∈ argv)
    (hplain : Word.ofString text = .plain text ∨ "--" ∈ argv) :
    c.Stepped argv (c.takePlain env p text) := by
  rw [takePlain]
  split
  · rename_i a hpending _
    refine .ok _ ⟨fun b raw h => ?_, hp.trailing⟩
    cases h
    exact hp.pending a [] hpending
  · exact takePositional_stepped hp htext hplain

/-- **A step of the reader** complains about an argument, an unknown option or the word that it
takes. -/
theorem take_stepped (hp : p.Known c argv)
    {text : String} (htext : text ∈ argv) : c.Stepped argv (c.take env p text) := by
  rw [take]
  split
  · exact takePlain_stepped hp htext (.inr (hp.trailing ‹_›))
  · split
    · rename_i hword
      exact .ok _ ⟨hp.pending, fun _ => Word.ofString_eq_mark.mp hword ▸ htext⟩
    · exact takeLong_stepped hp (Word.not_mem_of_ofString_long ‹_›) _
    · exact takeShort_stepped hp _
    · rename_i text' hword
      obtain rfl := Word.eq_of_ofString_plain hword
      exact takePlain_stepped hp htext (.inl hword)

theorem takeAll_fault (hp : p.Known c argv)
    {words : List String} (hwords : ∀ word ∈ words, word ∈ argv) {e : Complaint}
    (h : c.takeAll env p words = .error e) : c.Fault argv e := by
  induction words generalizing p with
  | nil =>
    have hsettle : c.Stepped argv (c.settle env p) := settle_stepped hp
    rw [takeAll] at h
    split at h
    · cases h
      exact hsettle.fault ‹_›
    · cases h
  | cons text rest ih =>
    have htake : c.Stepped argv (c.take env p text) := take_stepped hp (hwords text (by simp))
    rw [takeAll] at h
    split at h
    · cases h
      exact htake.fault ‹_›
    · exact ih (htake.known ‹_›) (fun word hmem => hwords word (List.mem_cons_of_mem _ hmem)) h

theorem addEnv_fault {args : List Arg} (hargs : ∀ a ∈ args, a ∈ c.args) {m : Matches}
    {e : Complaint} (h : c.addEnv env m args = .error e) : c.Fault argv e := by
  induction args generalizing m with
  | nil => cases h
  | cons a rest ih =>
    have hrest : ∀ b ∈ rest, b ∈ c.args := fun b hb => hargs b (List.mem_cons_of_mem _ hb)
    rw [addEnv] at h
    split at h
    · split at h
      · cases h
        exact accept_fault (List.mem_append_left _ (hargs a (by simp))) ‹_›
      · exact ih hrest h
    · exact ih hrest h

theorem conflict_fault {m : Matches} {e : Complaint} (h : c.conflict? m = some e) :
    c.Fault argv e := by
  obtain ⟨a, ha, hclash⟩ := List.exists_of_findSome?_eq_some h
  obtain ⟨id, -, hfind⟩ := List.mem_filterMap.mp ha
  obtain ⟨b, -, rfl⟩ := Option.map_eq_some_iff.mp hclash
  exact .argument a _ (List.mem_of_find?_eq_some hfind) rfl

theorem missing_fault {m : Matches} (h : c.missing m ≠ []) :
    c.Fault argv (.missingRequired ((c.missing m).map Arg.display)) := by
  obtain ⟨a, rest, hmissing⟩ := List.exists_cons_of_ne_nil h
  have ha : a ∈ c.missing m := by simp [hmissing]
  refine .argument a _ ?_ (by simp [Complaint.subject?, hmissing])
  simp only [missing, List.mem_append, List.mem_filter] at ha
  rcases ha with ⟨⟨ha, -⟩, -⟩ | ⟨⟨ha, -⟩, -⟩
  · exact ha
  · exact ha

end

/-- **What a command line is refused for** is an argument that it has, the help option with a
value, an unknown option or one of its words. -/
theorem parse_fault {c : Command} {env : Environment} {argv : List String} {e : Complaint}
    (h : c.parse env argv = .error e) : c.Fault argv e := by
  -- the reader calls the program by the first word, which no fault depends on
  have hrename (program : String) (hfault : Fault { c with program } argv e) : c.Fault argv e := by
    cases hfault with
    | help text => exact .help text
    | argument a _ ha hsubject => exact .argument a e ha hsubject
    | helpValue value hfree => exact .helpValue value hfree
    | long name hname hfree => exact .long name hname hfree
    | short s hfree => exact .short s hfree
    | word text htext hplain => exact .word text htext hplain
  rw [parse] at h
  generalize (argv.head?.bind fun path => (Path.ofString path).fileName?).getD c.program = program
    at h
  refine hrename program ?_
  dsimp only at h
  split at h
  · cases h
    have hstart : ({} : Progress).Known { c with program } argv :=
      ⟨fun a raw hp => (by cases hp), fun h => by cases h⟩
    exact takeAll_fault hstart (fun word => List.mem_of_mem_tail) ‹_›
  · split at h
    · cases h
      exact addEnv_fault (fun a ha => ha) ‹_›
    · split at h
      · cases h
        exact conflict_fault ‹_›
      · split at h
        · cases h
        · rename_i hmissing
          cases h
          exact missing_fault fun hnil => hmissing hnil

end Command
end LaneBus
