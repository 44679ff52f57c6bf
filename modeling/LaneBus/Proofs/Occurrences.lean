import LaneBus.Options.Binder

/-! # The occurrences of one option

While a command line is read, an option that takes one text is either absent, or
pending without its value, or has its value (`Command.Progress.given`).  A word that
begins with the option adds one occurrence (`Command.take_given`), nothing takes one
away, and the end of the line is only reached with one occurrence at most
(`Command.takeAll_given_length`).  So behind a value that has been given no word begins
with the option again (`Command.takeAll_holding`), and an option without its value is
followed by a plain word, which becomes its value (`Command.takeAll_open`).
-/
namespace LaneBus

/-- What holds of every word before the mark behind which all words are positional. -/
def BeforeMark (P : String → Prop) (words : List String) : Prop :=
  ∀ word ∈ words.takeWhile (· != "--"), P word

section

variable {P : String → Prop} {word : String} {rest : List String}

theorem beforeMark_nil : BeforeMark P [] := fun _ h => by cases h

theorem beforeMark_mark : BeforeMark P ("--" :: rest) := fun _ h => by cases h

theorem beforeMark_cons (h : word ≠ "--") :
    BeforeMark P (word :: rest) ↔ P word ∧ BeforeMark P rest := by
  simp only [BeforeMark, List.takeWhile_cons, bne_iff_ne.mpr h, if_true, List.forall_mem_cons]

end

/-- The occurrence of an option that a word begins with, and the value attached to it. -/
def Word.use? (a : Arg) : Word → Option (List String)
  | .long name value => if a.long = some name then some value.toList else none
  | .short (s :: rest) =>
    if a.short = some s then some (Command.attachedValue rest).toList else none
  | _ => none

/-- Only one text is the mark. -/
theorem Word.ofString_eq_mark {text : String} : Word.ofString text = .mark ↔ text = "--" := by
  constructor
  · intro h
    rw [Word.ofString] at h
    split at h
    · rename_i heq
      exact String.toList_inj.mp heq
    · dsimp only at h
      split at h <;> cases h
    · cases h
    · cases h
  · rintro rfl
    rfl

/-- A plain word is the whole text. -/
theorem Word.eq_of_ofString_plain {text text' : String} (h : Word.ofString text = .plain text') :
    text' = text := by
  rw [Word.ofString] at h
  split at h
  · cases h
  · dsimp only at h
    split at h <;> cases h
  · cases h
  · exact (Word.plain.inj h).symm

/-- A cluster is not empty. -/
theorem Word.ofString_ne_short_nil {text : String} : Word.ofString text ≠ .short [] := by
  rw [Word.ofString]
  split
  · exact fun h => by cases h
  · dsimp only
    split <;> exact fun h => by cases h
  · exact fun h => by cases h
  · exact fun h => by cases h

namespace Command

variable {c : Command} {env : Environment} {a b : Arg} {p p' : Progress} {m m' : Matches}
  {raw : List String} {words : List String}

/-- An option of a command line that takes one text as it stands, for which nothing else
stands in, and whose names and id are its own. -/
structure Owns (c : Command) (a : Arg) : Prop where
  action : a.action = .set
  type : a.type = .text
  delimiter : a.delimiter = none
  env : a.env = none
  default : a.default = none
  named : a.isPositional = false
  byLong : ∀ name, a.long = some name → c.longArg? name = some a
  byShort : ∀ s, a.short = some s → c.shortArg? s = some a
  unique : ∀ b ∈ c.allArgs, b.id = a.id → b = a

namespace Owns

theorem takesValue (h : c.Owns a) : a.takesValue = true := by
  simp [Arg.takesValue, h.action]

theorem id_ne (h : c.Owns a) (hb : b ∈ c.allArgs) (hne : b ≠ a) : b.id ≠ a.id :=
  fun hid => hne (h.unique b hb hid)

theorem split_raw (h : c.Owns a) (raw : List String) : raw.flatMap a.split = raw := by
  have hsplit : a.split = fun value => [value] := by
    funext value
    simp [Arg.split, h.delimiter]
  rw [hsplit, List.flatMap_singleton']

theorem checkAll (h : c.Owns a) (values : List String) : a.checkAll values = .ok () := by
  induction values with
  | nil => rfl
  | cons value rest ih => simp [Arg.checkAll, Arg.check, h.type, ih]

end Owns

namespace Progress

/-- The occurrences of an option so far, each with the texts that it was given.  The last
one can be pending. -/
def given (p : Progress) (a : Arg) : List (List String) :=
  (p.found.values.get? a.id).toList ++
    match p.pending with
    | some (b, raw) => if b.id = a.id then [raw] else []
    | none => []

/-- What is pending is an argument of the command line, and an option that has been found
has been found with a value. -/
structure Sound (c : Command) (a : Arg) (p : Progress) : Prop where
  known : ∀ b raw, p.pending = some (b, raw) → b ∈ c.allArgs
  filled : p.found.values.get? a.id ≠ some []

theorem given_of_settled (h : p.pending = none) :
    p.given a = (p.found.values.get? a.id).toList := by
  simp [given, h]

theorem given_length_of_settled (h : p.pending = none) : (p.given a).length ≤ 1 := by
  rw [given_of_settled h]
  cases p.found.values.get? a.id <;> simp

theorem given_start : ({} : Progress).given a = [] := rfl

theorem sound_start : ({} : Progress).Sound c a :=
  ⟨fun b raw h => (by cases h), fun h => by cases h⟩

end Progress

/-! ## Taking an occurrence -/

/-- Taking an occurrence of one argument leaves the others as they are. -/
theorem accept_of_ne (h : c.accept env m b raw = .ok m') {id : String} (hid : b.id ≠ id) :
    m'.values.get? id = m.values.get? id := by
  have hput (values : List String) :
      (m.put b.id values).values.get? id = m.values.get? id := by
    rw [Matches.put, Table.get?_insert, if_neg hid]
  rw [accept] at h
  split at h
  · cases h
  · dsimp only at h
    split at h
    · cases h
    · cases h
      exact hput _
    · split at h <;> cases h
      exact hput _
    · split at h
      · cases h
      · split at h <;> cases h
        exact hput _
    · split at h <;> cases h
      exact hput _

/-- An option is taken once, with a value. -/
theorem accept_self (ha : c.Owns a) (h : c.accept env m a raw = .ok m') :
    m.values.get? a.id = none ∧ raw ≠ [] ∧ m'.values.get? a.id = some raw := by
  rw [accept, ha.takesValue, Bool.true_and] at h
  split at h
  · cases h
  · rename_i hraw
    simp only [ha.action, ha.split_raw, ha.checkAll] at h
    split at h
    · cases h
    · rename_i hfresh
      cases h
      refine ⟨?_, fun hnil => hraw (by simp [hnil]), Table.get?_insert_self _ _ _⟩
      simpa [Matches.has] using hfresh

/-- Asking for help is never taken. -/
theorem accept_help_ne_ok (hb : b.action = .help) : c.accept env m b raw ≠ .ok m' := by
  have hflag : b.takesValue = false := by simp [Arg.takesValue, hb]
  simp [accept, hb, hflag]

/-- Settling changes nothing about what has been given. -/
theorem settle_given (ha : c.Owns a) (hs : p.Sound c a) (h : c.settle env p = .ok p') :
    p'.pending = none ∧ p'.trailing = p.trailing ∧ p'.Sound c a ∧ p'.given a = p.given a := by
  rw [settle] at h
  split at h
  · rename_i hpending
    cases h
    exact ⟨hpending, rfl, hs, rfl⟩
  · rename_i b raw hpending
    split at h
    · cases h
    · rename_i found haccept
      cases h
      by_cases hb : b = a
      · subst hb
        obtain ⟨hfresh, hraw, hfound⟩ := accept_self ha haccept
        refine ⟨rfl, rfl, ⟨fun b raw hp => (by cases hp), fun hnil => ?_⟩, ?_⟩
        · exact hraw (Option.some.inj (hfound.symm.trans hnil))
        · simp [Progress.given, hpending, hfresh, hfound]
      · have hid : b.id ≠ a.id := ha.id_ne (hs.known b raw hpending) hb
        have hsame := accept_of_ne haccept hid
        refine ⟨rfl, rfl, ⟨fun b raw hp => (by cases hp), fun hnil => ?_⟩, ?_⟩
        · exact hs.filled (hsame.symm.trans hnil)
        · simp [Progress.given, hpending, hid, hsame]

/-- An option without its value cannot be settled. -/
theorem settle_open_ne_ok (ha : c.Owns a) (hp : p.pending = some (a, [])) :
    c.settle env p ≠ .ok p' := by
  intro h
  simp [settle, hp, accept, ha.takesValue] at h

/-! ## What a word adds -/

/-- Naming an argument adds an occurrence of it and of no other. -/
theorem name_given (ha : c.Owns a) (hs : p.Sound c a) (hb : b ∈ c.allArgs)
    {attached : Option String} (h : c.name env p b attached = .ok p') :
    p'.trailing = p.trailing ∧ p'.Sound c a ∧
      p'.given a = p.given a ++ if b = a then [attached.toList] else [] := by
  rw [name] at h
  split at h
  · cases h
  · rename_i p₁ hsettle
    obtain ⟨hpending, htrailing, hs₁, hgiven⟩ := settle_given ha hs hsettle
    rw [← hgiven, ← htrailing]
    split at h
    · rename_i hopen
      cases h
      have hnone : attached = none := by simp_all
      refine ⟨rfl, ⟨fun b' raw hp => ?_, hs₁.filled⟩, ?_⟩
      · cases hp
        exact hb
      · rw [Progress.given_of_settled hpending]
        by_cases hba : b = a
        · simp [Progress.given, hba, hnone]
        · simp [Progress.given, hba, ha.id_ne hb hba]
    · rename_i hclosed
      split at h
      · cases h
      · rename_i found haccept
        cases h
        rw [Progress.given_of_settled hpending]
        have hgiven' : Progress.given { p₁ with found } a = (found.values.get? a.id).toList :=
          Progress.given_of_settled hpending
        rw [hgiven']
        by_cases hba : b = a
        · subst hba
          obtain ⟨hfresh, hraw, hfound⟩ := accept_self ha haccept
          refine ⟨rfl, ⟨fun b' raw hp => hs₁.known b' raw hp, fun hnil => ?_⟩, ?_⟩
          · exact hraw (Option.some.inj (hfound.symm.trans hnil))
          · simp [hfresh, hfound]
        · have hsame := accept_of_ne haccept (ha.id_ne hb hba)
          refine ⟨rfl, ⟨fun b' raw hp => hs₁.known b' raw hp, fun hnil => ?_⟩, ?_⟩
          · exact hs₁.filled (hsame.symm.trans hnil)
          · simp [hba, hsame]

theorem mem_of_longArg? {name : String} (h : c.longArg? name = some b) :
    b ∈ c.allArgs ∧ b.long = some name :=
  ⟨List.mem_of_find?_eq_some h, by simpa using List.find?_some h⟩

theorem mem_of_shortArg? {s : Char} (h : c.shortArg? s = some b) :
    b ∈ c.allArgs ∧ b.short = some s :=
  ⟨List.mem_of_find?_eq_some h, by simpa using List.find?_some h⟩

/-- A long name adds an occurrence of its option and of no other. -/
theorem takeLong_given (ha : c.Owns a) (hs : p.Sound c a) {long : String}
    {attached : Option String} (h : c.takeLong env p long attached = .ok p') :
    p'.trailing = p.trailing ∧ p'.Sound c a ∧
      p'.given a = p.given a ++ ((Word.long long attached).use? a).toList := by
  rw [takeLong] at h
  split at h
  · cases h
  · rename_i b hfind
    obtain ⟨hb, hlong⟩ := mem_of_longArg? hfind
    have hsame : b = a ↔ a.long = some long := by
      refine ⟨fun hba => hba ▸ hlong, fun hal => ?_⟩
      exact Option.some.inj (hfind.symm.trans (ha.byLong long hal))
    split at h
    · cases h
    · obtain ⟨htrailing, hs', hgiven⟩ := name_given ha hs hb h
      refine ⟨htrailing, hs', hgiven.trans ?_⟩
      by_cases hba : b = a
      · simp [hba, Word.use?, hsame.mp hba]
      · simp [hba, Word.use?, mt hsame.mpr hba]

/-- A cluster only adds occurrences of an option, and just one when it begins with its
short name. -/
theorem takeShort_given (ha : c.Owns a) {cluster : List Char} (hs : p.Sound c a)
    (h : c.takeShort env p cluster = .ok p') :
    p'.trailing = p.trailing ∧ p'.Sound c a ∧ ∃ more, p'.given a = p.given a ++ more ∧
      ∀ raw, (Word.short cluster).use? a = some raw → more = [raw] := by
  induction cluster generalizing p with
  | nil =>
    cases h
    exact ⟨rfl, hs, [], by simp, fun raw huse => by cases huse⟩
  | cons s rest ih =>
    rw [takeShort] at h
    split at h
    · cases h
    · rename_i b hfind
      obtain ⟨hb, hshort⟩ := mem_of_shortArg? hfind
      have hsame : a.short = some s → b = a := fun has =>
        Option.some.inj (hfind.symm.trans (ha.byShort s has))
      split at h
      · obtain ⟨htrailing, hs', hgiven⟩ := name_given ha hs hb h
        refine ⟨htrailing, hs', _, hgiven, fun raw huse => ?_⟩
        rw [Word.use?] at huse
        split at huse
        · rename_i has
          rw [if_pos (hsame has), Option.some.inj huse]
        · cases huse
      · rename_i hflag
        split at h
        · cases h
        · rename_i p₁ hname
          obtain ⟨htrailing, hs₁, hgiven⟩ := name_given ha hs hb hname
          have hba : b ≠ a := fun hba => hflag (hba ▸ ha.takesValue)
          rw [if_neg hba, List.append_nil] at hgiven
          obtain ⟨htrailing', hs', more, hmore, -⟩ := ih hs₁ h
          refine ⟨htrailing'.trans htrailing, hs', more, hgiven ▸ hmore, fun raw huse => ?_⟩
          rw [Word.use?] at huse
          split at huse
          · exact absurd (hsame ‹_›) hba
          · cases huse

/-- A positional argument adds no occurrence of an option. -/
theorem takePositional_given (ha : c.Owns a) (hs : p.Sound c a) {text : String}
    (h : c.takePositional env p text = .ok p') :
    p'.trailing = p.trailing ∧ p'.Sound c a ∧ p'.given a = p.given a := by
  rw [takePositional] at h
  split at h
  · cases h
  · rename_i b hget
    obtain ⟨hargs, hpositional⟩ := List.mem_filter.mp (List.mem_of_getElem? hget)
    have hb : b ∈ c.allArgs := List.mem_append_left _ hargs
    have hba : b ≠ a := fun hba => by
      rw [hba, ha.named] at hpositional
      cases hpositional
    split at h
    · cases h
    · rename_i p₁ hsettle
      cases h
      obtain ⟨hpending, htrailing, hs₁, hgiven⟩ := settle_given ha hs hsettle
      refine ⟨htrailing, ⟨fun b' raw hp => ?_, hs₁.filled⟩, ?_⟩
      · cases hp
        exact hb
      · rw [← hgiven, Progress.given_of_settled hpending]
        simp [Progress.given, ha.id_ne hb hba]

/-- A plain word is the value of what is pending without one, or a positional argument:
it adds no occurrence of an option. -/
theorem takePlain_given (ha : c.Owns a) (hs : p.Sound c a) {text : String}
    (h : c.takePlain env p text = .ok p') :
    p'.trailing = p.trailing ∧ p'.Sound c a ∧ (p'.given a).length = (p.given a).length ∧
      ([] ∉ p.given a → p'.given a = p.given a) := by
  rw [takePlain] at h
  split at h
  · rename_i b hpending htrailing
    cases h
    refine ⟨rfl, ⟨fun b' raw hp => ?_, hs.filled⟩, ?_, fun hclosed => ?_⟩
    · cases hp
      exact hs.known b [] hpending
    · simp only [Progress.given, hpending, List.length_append]
      split <;> rfl
    · simp only [Progress.given, hpending] at hclosed ⊢
      split
      · rename_i hid
        simp [hid] at hclosed
      · rfl
  · obtain ⟨htrailing, hs', hgiven⟩ := takePositional_given ha hs h
    exact ⟨htrailing, hs', congrArg List.length hgiven, fun _ => hgiven⟩

/-- **What a word adds.**  Before the mark, a word adds one occurrence of an option when it
begins with it; a cluster can add others behind its beginning, and no other word adds
any. -/
theorem take_given (ha : c.Owns a) (hs : p.Sound c a) (ht : p.trailing = false)
    {text : String} (htext : text ≠ "--") (h : c.take env p text = .ok p') :
    p'.trailing = false ∧ p'.Sound c a ∧ (p.given a).length ≤ (p'.given a).length ∧
      ([] ∉ p.given a → ∃ more, p'.given a = p.given a ++ more ∧
        (∀ raw, (Word.ofString text).use? a = some raw → more = [raw]) ∧
        ((Word.ofString text).use? a = none →
          (∀ cluster, Word.ofString text ≠ .short cluster) → more = [])) := by
  rw [take, ht, if_neg Bool.false_ne_true] at h
  split at h
  · exact absurd (Word.ofString_eq_mark.mp ‹_›) htext
  · rename_i name value hword
    obtain ⟨htrailing, hs', hgiven⟩ := takeLong_given ha hs h
    refine ⟨htrailing.trans ht, hs', by simp [hgiven], fun _ => ⟨_, hgiven, ?_, ?_⟩⟩
    · rw [hword]
      exact fun raw huse => by rw [huse]; rfl
    · rw [hword]
      exact fun huse _ => by rw [huse]; rfl
  · rename_i cluster hword
    obtain ⟨htrailing, hs', more, hgiven, huse⟩ := takeShort_given ha hs h
    refine ⟨htrailing.trans ht, hs', by simp [hgiven], fun _ => ⟨more, hgiven, ?_, ?_⟩⟩
    · rw [hword]
      exact huse
    · exact fun _ hlong => absurd hword (hlong cluster)
  · rename_i text' hword
    obtain ⟨htrailing, hs', hlength, hgiven⟩ := takePlain_given ha hs h
    refine ⟨htrailing.trans ht, hs', Nat.le_of_eq hlength.symm, fun hclosed => ⟨[], ?_, ?_, ?_⟩⟩
    · rw [hgiven hclosed, List.append_nil]
    · rw [hword]
      exact fun raw huse => by cases huse
    · exact fun _ _ => rfl

/-- A cluster that begins with another short name is refused when the only other short
name asks for help. -/
theorem take_short_ne_ok (hshort : ∀ b ∈ c.allArgs, b.short.isSome → b = a ∨ b.action = .help)
    (ht : p.trailing = false) {text : String} {cluster : List Char}
    (hword : Word.ofString text = .short cluster) (huse : (Word.short cluster).use? a = none) :
    c.take env p text ≠ .ok p' := by
  intro h
  rw [take, ht, if_neg Bool.false_ne_true, hword] at h
  cases cluster with
  | nil => exact Word.ofString_ne_short_nil hword
  | cons s rest =>
    simp only [takeShort] at h
    split at h
    · cases h
    · rename_i b hfind
      obtain ⟨hb, hname⟩ := mem_of_shortArg? hfind
      have hhelp : b.action = .help := by
        refine (hshort b hb (by simp [hname])).resolve_left fun hba => ?_
        simp [Word.use?, ← hba, hname] at huse
      have hnever (attached : Option String) (p' : Progress) :
          c.name env p b attached ≠ .ok p' := by
        intro h
        rw [Command.name] at h
        split at h
        · cases h
        · rw [if_neg (by simp [Arg.takesValue, hhelp])] at h
          split at h
          · cases h
          · exact accept_help_ne_ok hhelp ‹_›
      split at h
      · exact hnever _ _ h
      · split at h
        · cases h
        · exact hnever _ _ ‹_›

/-! ## The rest of a command line -/

/-- Behind the mark no option occurs, and none is left without its value. -/
theorem takeAll_trailing (ha : c.Owns a) (hs : p.Sound c a) (ht : p.trailing = true)
    (h : c.takeAll env p words = .ok m) :
    (m.values.get? a.id).toList = p.given a ∧ [] ∉ p.given a := by
  induction words generalizing p with
  | nil =>
    rw [takeAll] at h
    split at h
    · cases h
    · rename_i p' hsettle
      cases h
      obtain ⟨hpending, -, hs', hgiven⟩ := settle_given ha hs hsettle
      rw [← hgiven, Progress.given_of_settled hpending]
      exact ⟨rfl, fun hnil => hs'.filled (Option.mem_toList.mp hnil)⟩
  | cons text rest ih =>
    rw [takeAll] at h
    split at h
    · cases h
    · rename_i p' htake
      rw [take, if_pos ht] at htake
      have hpositional : c.takePositional env p text = .ok p' := by
        rw [takePlain] at htake
        split at htake
        · simp_all
        · exact htake
      obtain ⟨htrailing, hs', hgiven⟩ := takePositional_given ha hs hpositional
      rw [← hgiven]
      exact ih hs' (htrailing.trans ht) h

/-- A command line that is accepted has one occurrence of an option at most. -/
theorem takeAll_given_length (ha : c.Owns a) (hs : p.Sound c a)
    (h : c.takeAll env p words = .ok m) : (p.given a).length ≤ 1 := by
  have hend {q : Progress} (hs : q.Sound c a) (ht : q.trailing = true) {words : List String}
      (h : c.takeAll env q words = .ok m) : (q.given a).length ≤ 1 := by
    rw [← (takeAll_trailing ha hs ht h).1]
    cases m.values.get? a.id <;> simp
  cases ht : p.trailing with
  | true => exact hend hs ht h
  | false =>
    induction words generalizing p with
    | nil =>
      rw [takeAll] at h
      split at h
      · cases h
      · obtain ⟨hpending, -, -, hgiven⟩ := settle_given ha hs ‹_›
        rw [← hgiven]
        exact Progress.given_length_of_settled hpending
    | cons text rest ih =>
      rw [takeAll] at h
      split at h
      · cases h
      · rename_i p' htake
        by_cases htext : text = "--"
        · subst htext
          have hp' : { p with trailing := true } = p' := by
            rw [take, ht] at htake
            exact Except.ok.inj htake
          subst hp'
          exact hend (q := { p with trailing := true }) ⟨hs.known, hs.filled⟩ rfl h
        · obtain ⟨htrailing, hs', hle, -⟩ := take_given ha hs ht htext htake
          exact Nat.le_trans hle (ih hs' h htrailing)

/-- Behind the value of an option no word begins with it. -/
theorem takeAll_holding (ha : c.Owns a) (hs : p.Sound c a) (ht : p.trailing = false)
    (hraw : raw ≠ []) (hgiven : p.given a = [raw]) (h : c.takeAll env p words = .ok m) :
    m.values.get? a.id = some raw ∧
      BeforeMark (fun word => (Word.ofString word).use? a = none) words := by
  induction words generalizing p with
  | nil =>
    rw [takeAll] at h
    split at h
    · cases h
    · cases h
      obtain ⟨hpending, -, -, hsame⟩ := settle_given ha hs ‹_›
      rw [Progress.given_of_settled hpending, hgiven] at hsame
      exact ⟨by simpa using hsame, beforeMark_nil⟩
  | cons text rest ih =>
    rw [takeAll] at h
    split at h
    · cases h
    · rename_i p' htake
      by_cases htext : text = "--"
      · subst htext
        have hp' : { p with trailing := true } = p' := by
          rw [take, ht] at htake
          exact Except.ok.inj htake
        subst hp'
        obtain ⟨hend, -⟩ := takeAll_trailing ha (p := { p with trailing := true })
          ⟨hs.known, hs.filled⟩ rfl h
        have hsame : Progress.given { p with trailing := true } a = [raw] := hgiven
        exact ⟨by simpa [hsame] using hend, beforeMark_mark⟩
      · obtain ⟨htrailing, hs', -, hadds⟩ := take_given ha hs ht htext htake
        obtain ⟨more, hmore, huse, -⟩ := hadds (by simp [hgiven, hraw.symm])
        have hlength := takeAll_given_length ha hs' h
        -- a second occurrence would stay until the end
        have hnil : more = [] := by
          rw [hmore, hgiven] at hlength
          simpa using hlength
        have hnone : (Word.ofString text).use? a = none := by
          cases hword : (Word.ofString text).use? a with
          | none => rfl
          | some raw' =>
            have hone := huse raw' hword
            rw [hnil] at hone
            cases hone
        obtain ⟨hend, hrest⟩ := ih hs' htrailing (by rw [hmore, hgiven, hnil]; rfl) h
        exact ⟨hend, (beforeMark_cons htext).mpr ⟨hnone, hrest⟩⟩

/-- An option that waits for its value is what is pending. -/
theorem pending_of_given (ha : c.Owns a) (hs : p.Sound c a) (hgiven : p.given a = [[]]) :
    p.pending = some (a, []) := by
  have hfilled := hs.filled
  rw [Progress.given] at hgiven
  cases hfound : p.found.values.get? a.id with
  | some raw =>
    simp only [hfound, Option.toList_some, List.singleton_append, List.cons.injEq] at hgiven
    rw [hfound, hgiven.1] at hfilled
    exact absurd rfl hfilled
  | none =>
    simp only [hfound, Option.toList_none, List.nil_append] at hgiven
    split at hgiven
    · rename_i b raw hpending
      split at hgiven
      · obtain rfl : raw = [] := by simpa using hgiven
        rw [hpending, ha.unique b (hs.known b [] hpending) ‹_›]
      · cases hgiven
    · cases hgiven

/-- An option without its value is followed by a plain word, which becomes its value. -/
theorem takeAll_open (ha : c.Owns a) (hs : p.Sound c a) (ht : p.trailing = false)
    (hgiven : p.given a = [[]]) (h : c.takeAll env p words = .ok m) :
    ∃ value rest, words = value :: rest ∧ Word.ofString value = .plain value ∧
      m.values.get? a.id = some [value] ∧
      BeforeMark (fun word => (Word.ofString word).use? a = none) rest := by
  have hpending := pending_of_given ha hs hgiven
  have hname {b : Arg} {attached : Option String} {p' : Progress} :
      c.name env p b attached ≠ .ok p' := by
    intro h
    rw [Command.name] at h
    split at h
    · cases h
    · exact settle_open_ne_ok ha hpending ‹_›
  cases words with
  | nil =>
    rw [takeAll] at h
    split at h
    · cases h
    · exact absurd ‹_› (settle_open_ne_ok ha hpending)
  | cons text rest =>
    rw [takeAll] at h
    split at h
    · cases h
    · rename_i p' htake
      rw [take, ht, if_neg Bool.false_ne_true] at htake
      split at htake
      · -- the mark: the option is settled without its value, whatever comes next
        cases htake
        obtain ⟨-, hfilled⟩ := takeAll_trailing ha (p := { p with trailing := true })
          ⟨hs.known, hs.filled⟩ rfl h
        have hsame : Progress.given { p with trailing := true } a = [[]] := hgiven
        simp [hsame] at hfilled
      · rw [takeLong] at htake
        split at htake
        · cases htake
        · split at htake
          · cases htake
          · exact absurd htake hname
      · rename_i cluster hword
        cases cluster with
        | nil => exact absurd hword Word.ofString_ne_short_nil
        | cons s rest =>
          simp only [takeShort] at htake
          split at htake
          · cases htake
          · split at htake
            · exact absurd htake hname
            · split at htake
              · cases htake
              · exact absurd ‹_› hname
      · rename_i text' hword
        obtain rfl := Word.eq_of_ofString_plain hword
        simp only [takePlain, hpending, ht] at htake
        cases htake
        have hfound : p.found.values.get? a.id = none := by
          simpa [Progress.given, hpending] using hgiven
        obtain ⟨hend, hrest⟩ := takeAll_holding ha
          (p := { p with pending := some (a, [text']), trailing := false })
          ⟨fun b raw hp => (by cases hp; exact hs.known a [] hpending), hs.filled⟩ rfl
          (show [text'] ≠ [] by simp) (by simp [Progress.given, hfound]) h
        exact ⟨text', rest, rfl, hword, hend, hrest⟩

/-! ## What is added at the end -/

/-- The environment adds nothing to an option that has no variable. -/
theorem addEnv_of_owns (ha : c.Owns a) {args : List Arg} (hargs : ∀ b ∈ args, b ∈ c.allArgs)
    (h : c.addEnv env m args = .ok m') : m'.values.get? a.id = m.values.get? a.id := by
  induction args generalizing m with
  | nil =>
    cases h
    rfl
  | cons b rest ih =>
    have hrest : ∀ b ∈ rest, b ∈ c.allArgs := fun b hb => hargs b (List.mem_cons_of_mem _ hb)
    rw [addEnv] at h
    split at h
    · rename_i value _ hvalue
      split at h
      · cases h
      · rename_i m₁ haccept
        have hba : b ≠ a := fun hba => by
          rw [hba, ha.env] at hvalue
          cases hvalue
        rw [ih hrest h]
        exact accept_of_ne haccept (ha.id_ne (hargs b List.mem_cons_self) hba)
    · exact ih hrest h

/-- Defaults add nothing to an option that has none. -/
theorem addDefaults_of_owns (ha : c.Owns a) {args : List Arg} (hargs : ∀ b ∈ args, b ∈ c.allArgs) :
    (addDefaults m args).values.get? a.id = m.values.get? a.id := by
  induction args generalizing m with
  | nil => rfl
  | cons b rest ih =>
    have hrest : ∀ b ∈ rest, b ∈ c.allArgs := fun b hb => hargs b (List.mem_cons_of_mem _ hb)
    rw [addDefaults]
    split
    · rename_i value _ hvalue
      have hba : b ≠ a := fun hba => by
        rw [hba, ha.default] at hvalue
        cases hvalue
      rw [ih hrest, Matches.put, Table.get?_insert,
        if_neg (ha.id_ne (hargs b List.mem_cons_self) hba)]
    · exact ih hrest

/-- The value of an option is the one that the words give it. -/
theorem parse_value (ha : c.Owns a) {argv : List String} (h : c.parse env argv = .ok m) :
    ∃ program m₀, takeAll { c with program } env {} argv.tail = .ok m₀ ∧
      m.values.get? a.id = m₀.values.get? a.id := by
  have hargs : ∀ b ∈ c.args, b ∈ c.allArgs := fun b hb => List.mem_append_left _ hb
  simp only [parse] at h
  generalize (argv.head?.bind fun path => (Path.ofString path).fileName?).getD c.program = program
    at h
  have ha' : Owns { c with program } a := ⟨ha.action, ha.type, ha.delimiter, ha.env, ha.default,
    ha.named, ha.byLong, ha.byShort, ha.unique⟩
  split at h
  · cases h
  · rename_i m₀ htake
    split at h
    · cases h
    · rename_i m₁ henv
      split at h
      · cases h
      · split at h
        · cases h
          refine ⟨program, m₀, htake, ?_⟩
          rw [addDefaults_of_owns ha' hargs, addEnv_of_owns ha' hargs henv]
        · cases h

end Command
end LaneBus
