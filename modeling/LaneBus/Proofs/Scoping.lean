import LaneBus.Proofs.Binding
import LaneBus.Proofs.Complaints
import Mathlib.Data.List.TakeWhile

/-! # Whose help comes with a complaint

A binder looks for the bundle that a complaint belongs to in the text of the complaint.  The
first word of an argument, as it is shown, is read back as a long name, a short name or an id
(`Mention`), and the bundles that have such an argument are taken.

An option is always traced to the bundle that declares it, since no other bundle has its name,
except that a counted one is looked for with the dots that are shown behind its long name.  A
required positional argument is traced to its bundle unless another one has its id in another
case.  An optional one is looked for with its square brackets, so that it is traced to nobody
and all bundles are shown.  An option that nobody declares comes with all bundles, but a word
that has no place comes with the bundle that happens to have it as an id.
`Binder.parse_scoped` says all of this of every command line that is refused.
-/
namespace LaneBus

/-! ## Reading an argument back from a text -/

/-- What the first word of a text takes an argument to be called. -/
inductive Mention where
  | long (name : String)
  | short (name : Char)
  | id (text : String)

namespace Mention

/-- A text without angle brackets in front and behind. -/
def bare (s : List Char) : String :=
  String.ofList ((s.dropWhile (· == '<')).reverse.dropWhile (· == '>')).reverse

/-- What a word takes an argument to be called. -/
def ofWord? (word : String) : Option Mention :=
  match word.toList with
  | '-' :: '-' :: rest => some (.long (String.ofList (rest.takeWhile (· != '='))))
  | '-' :: rest => rest.head?.map .short
  | s => some (.id (bare s))

/-- What the first word of a text takes an argument to be called. -/
def ofText? (text : String) : Option Mention := (Text.firstWord? text).bind ofWord?

/-- An argument is called that; letters of its id may differ in case. -/
def Names : Mention → Arg → Prop
  | long name, a => a.long = some name
  | short name, a => a.short = some name
  | id text, a => Text.sameIgnoringCase a.id text = true

section

variable {word : String} {rest : List Char}

theorem ofWord?_long (h : word.toList = '-' :: '-' :: rest) :
    ofWord? word = some (.long (String.ofList (rest.takeWhile (· != '=')))) := by
  simp only [ofWord?, h]

theorem ofWord?_short (h : word.toList = '-' :: rest) (hrest : ∀ s, rest ≠ '-' :: s) :
    ofWord? word = rest.head?.map .short := by
  rw [ofWord?, h]
  split
  · rename_i heq
    exact absurd (List.cons.inj heq).2 (hrest _)
  · rename_i heq
    rw [(List.cons.inj heq).2]
  · rename_i hshort
    exact absurd rfl (hshort rest)

theorem ofWord?_id (h : ∀ s, word.toList ≠ '-' :: s) :
    ofWord? word = some (.id (bare word.toList)) := by
  unfold ofWord?
  split
  · exact absurd ‹_› (h _)
  · exact absurd ‹_› (h _)
  · rfl

end

end Mention

/-- **The test of a word** reads what the word takes an argument to be called. -/
theorem Arg.isNamedBy_iff {a : Arg} {word : String} :
    a.isNamedBy word = true ↔ ∃ m, Mention.ofWord? word = some m ∧ m.Names a := by
  unfold isNamedBy
  split
  · simp [Mention.ofWord?_long ‹_›, Mention.Names]
  · rename_i rest hrest hword
    rw [Mention.ofWord?_short hword hrest]
    cases rest with
    | nil => cases a.short <;> simp
    | cons s rest =>
      have hsame : (a.short.isSome && some s == a.short) = true ↔ a.short = some s := by
        cases a.short with
        | none => simp
        | some t => simpa using eq_comm
      simpa [Mention.Names] using hsame
  · rename_i hshort
    simp [Mention.ofWord?_id hshort, Mention.Names, Mention.bare]

/-- A bundle has an argument that is called that. -/
def Bundle.Has (b : Bundle) (m : Mention) : Prop := ∃ a ∈ b.args, m.Names a

theorem Bundle.owns_iff {b : Bundle} {word : String} :
    b.owns word = true ↔ ∃ m, Mention.ofWord? word = some m ∧ b.Has m := by
  simp only [owns, List.any_eq_true, Arg.isNamedBy_iff, Has]
  constructor
  · rintro ⟨a, ha, m, hm, hnames⟩
    exact ⟨m, hm, a, ha, hnames⟩
  · rintro ⟨m, hm, a, ha, hnames⟩
    exact ⟨a, ha, m, hm, hnames⟩

/-- What a complaint takes the argument that it is about to be called. -/
def Complaint.mention? (e : Complaint) : Option Mention := e.subject?.bind Mention.ofText?

/-! ## The bundles that are shown -/

/-- A list without duplicates is filtered to one of its members when only that passes. -/
theorem filter_eq_singleton_iff {α : Type} {l : List α} (hl : l.Nodup) {a : α} (ha : a ∈ l)
    {p : α → Bool} : l.filter p = [a] ↔ ∀ b ∈ l, p b = true ↔ b = a := by
  constructor
  · intro h b hb
    rw [← List.mem_singleton (b := a), ← h, List.mem_filter]
    exact (and_iff_right hb).symm
  · intro h
    refine List.perm_singleton.mp ?_
    refine (List.perm_ext_iff_of_nodup (hl.filter p) (by simp)).mpr fun b => ?_
    rw [List.mem_filter, List.mem_singleton]
    constructor
    · rintro ⟨hb, hpass⟩
      exact (h b hb).mp hpass
    · rintro rfl
      exact ⟨ha, (h b ha).mpr rfl⟩

namespace Binder

variable {x y : Binder} {b : Bundle} {e : Complaint} {m : Mention}

/-- The bundles whose help comes with a complaint. -/
def scope (x : Binder) (e : Complaint) : List Bundle :=
  if (x.owners e).isEmpty then x.bundles else x.owners e

theorem explain_eq (h : e.isHelp = false) :
    x.explain e = .parse e (firstLine e.message) (usageText x.program x.env (x.scope e)) := by
  unfold explain scope
  rw [h, if_neg Bool.false_ne_true]
  dsimp only
  split <;> rfl

theorem explain_isInformational : (x.explain e).isInformational = e.isHelp := by
  unfold explain
  split <;> rfl

/-- The owners are chosen by what the complaint seems to be about. -/
theorem owners_eq (hm : e.mention? = some m) :
    ∃ p : Bundle → Bool, x.owners e = x.bundles.filter p ∧ ∀ b, p b = true ↔ b.Has m := by
  obtain ⟨text, hsubject, htext⟩ := Option.bind_eq_some_iff.mp hm
  obtain ⟨word, hword, hmention⟩ := Option.bind_eq_some_iff.mp htext
  refine ⟨fun b => b.owns word, by simp [owners, hsubject, hword], fun b => ?_⟩
  simp [Bundle.owns_iff, hmention]

theorem owners_eq_nil (hm : e.mention? = none) : x.owners e = [] := by
  rw [owners]
  split
  · rfl
  · rename_i word hword
    obtain ⟨text, hsubject, hfirst⟩ := Option.bind_eq_some_iff.mp hword
    have hmention : Mention.ofWord? word = none := by
      simpa [Complaint.mention?, Mention.ofText?, hsubject, hfirst] using hm
    refine List.filter_eq_nil_iff.mpr fun b _ => ?_
    simp [Bundle.owns_iff, hmention]

/-- All bundles are shown exactly when none or all of them have what the complaint seems to be
about. -/
theorem scope_eq_bundles_iff (hm : e.mention? = some m) :
    x.scope e = x.bundles ↔ (∀ b ∈ x.bundles, ¬b.Has m) ∨ ∀ b ∈ x.bundles, b.Has m := by
  obtain ⟨p, howners, hp⟩ := x.owners_eq hm
  simp only [← hp]
  rw [← List.filter_eq_nil_iff, ← List.filter_eq_self, ← howners, scope]
  split
  · rename_i hnil
    exact iff_of_true rfl (.inl (List.isEmpty_iff.mp hnil))
  · rename_i hsome
    rw [List.isEmpty_iff] at hsome
    exact (or_iff_right hsome).symm

/-- A bundle is the only one that is bound, or the only one with an argument that is called
something. -/
def Only (x : Binder) (b : Bundle) (m : Mention) : Prop :=
  x.bundles = [b] ∨ ∀ b' ∈ x.bundles, b'.Has m ↔ b' = b

theorem Apart.bindAll {bundles : List Bundle} (h : x.Apart) (hbind : x.bindAll bundles = .ok y) :
    y.Apart := by
  induction bundles generalizing x with
  | nil =>
    cases hbind
    exact h
  | cons b rest ih =>
    rw [Binder.bindAll] at hbind
    split at hbind
    · cases hbind
    · exact ih (h.bind ‹_›) hbind

theorem Apart.nodup (h : x.Apart) : x.bundles.Nodup :=
  h.imp fun hdisjoint heq => hdisjoint.1 (congrArg Bundle.key heq)

/-- Two bound bundles that clash are one. -/
theorem Apart.eq_of_clashes (h : x.Apart) {b b' : Bundle} (hb : b ∈ x.bundles)
    (hb' : b' ∈ x.bundles) (hclash : b.Clashes b') : b = b' := by
  by_contra hne
  exact (h.forall hb hb' hne).2 hclash

/-- **Exactly one bundle is shown** when it is the only one, or the only one that has what the
complaint seems to be about. -/
theorem Apart.scope_eq_singleton_iff (h : x.Apart) (hb : b ∈ x.bundles)
    (hm : e.mention? = some m) : x.scope e = [b] ↔ x.Only b m := by
  obtain ⟨p, howners, hp⟩ := x.owners_eq hm
  have hone : x.owners e = [b] ↔ ∀ b' ∈ x.bundles, b'.Has m ↔ b' = b := by
    simp only [← hp]
    rw [howners]
    exact filter_eq_singleton_iff h.nodup hb
  rw [Only, ← hone, scope]
  split
  · rename_i hnil
    rw [List.isEmpty_iff] at hnil
    simp [hnil]
  · rename_i hsome
    refine ⟨.inr, ?_⟩
    rintro (hsingle | honly)
    · rw [howners, hsingle] at hsome ⊢
      cases hpass : p b with
      | true => simp [hpass]
      | false => simp [hpass] at hsome
    · exact honly

end Binder

/-! ## Arguments as they are shown -/

/-- The names of an argument can be told from what is around them where it is shown: there are
no blanks in them and no brackets, equals signs or hyphens where these would mislead, and a
positional argument is shown by its id, in whatever case. -/
structure Arg.Legible (a : Arg) : Prop where
  long : ∀ name, a.long = some name → ∀ c ∈ name.toList, Text.isBlank c = false ∧ c ≠ '='
  short : ∀ s, a.short = some s → Text.isBlank s = false ∧ s ≠ '-'
  value : a.isPositional = true → Text.sameIgnoringCase a.id a.valueName = true ∧
    ∀ c ∈ a.valueName.toList, Text.isBlank c = false ∧ c ≠ '<' ∧ c ≠ '>'

/-- What an argument is looked for as: a counted option with the dots behind its long name, an
optional positional argument with its brackets. -/
def Arg.mention (a : Arg) : Mention :=
  match a.long, a.short with
  | some long, _ => .long (if a.action = .count then long ++ "..." else long)
  | none, some short => .short short
  | none, none => .id (if a.required then a.valueName else "[" ++ a.valueName ++ "]")

/-- The first word of a text that begins with one. -/
theorem Text.firstWord?_append {word rest : List Char} (hne : word ≠ [])
    (hword : ∀ c ∈ word, isBlank c = false) (hrest : ∀ c ∈ rest.head?, isBlank c = true)
    {text : String} (htext : text.toList = word ++ rest) :
    firstWord? text = some (String.ofList word) := by
  obtain ⟨c, cs, rfl⟩ := List.exists_cons_of_ne_nil hne
  have hfirst : Text.isBlank c = false := hword c (by simp)
  have htrim : Text.trimFront text.toList = c :: cs ++ rest := by
    rw [htext, Text.trimFront, List.cons_append, List.dropWhile_cons_of_neg (by simp [hfirst])]
  have htake : (c :: cs ++ rest).takeWhile (fun c => !Text.isBlank c) = c :: cs := by
    rw [List.takeWhile_append_of_pos fun d hd => by simp [hword d hd]]
    cases rest with
    | nil => simp
    | cons d rest => simp [hrest d rfl]
  rw [Text.firstWord?, htrim, htake]
  rfl

namespace Mention

section

variable {text : String} {rest : List Char} (hrest : ∀ c ∈ rest.head?, Text.isBlank c = true)

include hrest

theorem ofText?_long {name : List Char} (hname : ∀ c ∈ name, Text.isBlank c = false ∧ c ≠ '=')
    (htext : text.toList = '-' :: '-' :: (name ++ rest)) :
    ofText? text = some (.long (String.ofList name)) := by
  have hword : ∀ c ∈ '-' :: '-' :: name, Text.isBlank c = false := by
    simp only [List.forall_mem_cons]
    exact ⟨rfl, rfl, fun c hc => (hname c hc).1⟩
  have hcut : name.takeWhile (· != '=') = name :=
    List.takeWhile_eq_self_iff.mpr fun c hc => by simpa using (hname c hc).2
  rw [ofText?, Text.firstWord?_append (List.cons_ne_nil _ _) hword hrest htext, Option.bind_some,
    ofWord?_long String.toList_ofList, hcut]

theorem ofText?_short {s : Char} (hs : Text.isBlank s = false ∧ s ≠ '-') {more : List Char}
    (hmore : ∀ c ∈ more, Text.isBlank c = false)
    (htext : text.toList = '-' :: s :: (more ++ rest)) : ofText? text = some (.short s) := by
  have hword : ∀ c ∈ '-' :: s :: more, Text.isBlank c = false := by
    simp only [List.forall_mem_cons]
    exact ⟨rfl, hs.1, hmore⟩
  rw [ofText?, Text.firstWord?_append (List.cons_ne_nil _ _) hword hrest htext, Option.bind_some,
    ofWord?_short String.toList_ofList fun t heq => hs.2 (List.cons.inj heq).1]
  rfl

theorem ofText?_id {word : List Char} (hne : word ≠ [])
    (hword : ∀ c ∈ word, Text.isBlank c = false) (hhyphen : word.head? ≠ some '-')
    (htext : text.toList = word ++ rest) : ofText? text = some (.id (bare word)) := by
  have hshape : ∀ s, (String.ofList word).toList ≠ '-' :: s := by
    intro s heq
    rw [String.toList_ofList] at heq
    exact hhyphen (by rw [heq]; rfl)
  rw [ofText?, Text.firstWord?_append hne hword hrest htext, Option.bind_some, ofWord?_id hshape,
    String.toList_ofList]

end

theorem bare_brackets {value : List Char} (h : ∀ c ∈ value, c ≠ '<' ∧ c ≠ '>') :
    bare ('<' :: (value ++ ['>'])) = String.ofList value := by
  have hfront : ('<' :: (value ++ ['>'])).dropWhile (· == '<') = value ++ ['>'] := by
    rw [List.dropWhile_cons_of_pos rfl]
    cases value with
    | nil => rfl
    | cons c cs => exact List.dropWhile_cons_of_neg (by simpa using (h c (by simp)).1)
  have hback : ('>' :: value.reverse).dropWhile (· == '>') = value.reverse := by
    rw [List.dropWhile_cons_of_pos rfl]
    cases hreverse : value.reverse with
    | nil => rfl
    | cons c cs =>
      have hc : c ∈ value := List.mem_reverse.mp (by simp [hreverse])
      exact List.dropWhile_cons_of_neg (by simpa using (h c hc).2)
  rw [bare, hfront, List.reverse_append, List.reverse_singleton, List.singleton_append, hback,
    List.reverse_reverse]

theorem bare_squares (value : List Char) :
    bare ('[' :: (value ++ [']'])) = String.ofList ('[' :: (value ++ [']'])) := by
  simp [bare]

end Mention

namespace Arg

variable {a : Arg}

/-- An argument is shown by its long name, or else by its short name, or else by the name of its
value, with angle brackets when it is required and with square ones when it is not. -/
theorem shape_cases (a : Arg) :
    (∃ name, a.long = some name ∧ a.display = "--" ++ name ++ a.suffix ∧
      a.mention = .long (if a.action = .count then name ++ "..." else name)) ∨
    (∃ s, a.long = none ∧ a.short = some s ∧ a.display = "-" ++ s.toString ++ a.suffix ∧
      a.mention = .short s) ∨
    (a.isPositional = true ∧ a.required = true ∧ a.display = "<" ++ a.valueName ++ ">" ∧
      a.mention = .id a.valueName) ∨
    (a.isPositional = true ∧ a.required = false ∧ a.display = "[" ++ a.valueName ++ "]" ∧
      a.mention = .id ("[" ++ a.valueName ++ "]")) := by
  unfold display mention isPositional
  cases a.long with
  | some name => exact .inl ⟨name, rfl, rfl, rfl⟩
  | none =>
    cases a.short with
    | some s => exact .inr (.inl ⟨s, rfl, rfl, rfl, rfl⟩)
    | none =>
      cases a.required with
      | true => exact .inr (.inr (.inl ⟨rfl, rfl, rfl, rfl⟩))
      | false => exact .inr (.inr (.inr ⟨rfl, rfl, rfl, rfl⟩))

/-- What is shown behind the name of an option is dots, or else it is set off by a blank. -/
theorem suffix_eq (a : Arg) : ∃ rest : List Char,
    a.suffix.toList = (if a.action = .count then ['.', '.', '.'] else []) ++ rest ∧
      ∀ c ∈ rest.head?, Text.isBlank c = true := by
  have hvalue : ∃ rest : List Char, (" <" ++ a.valueName ++ ">").toList = [] ++ rest ∧
      ∀ c ∈ rest.head?, Text.isBlank c = true :=
    ⟨[' ', '<'] ++ a.valueName.toList ++ ['>'], by simp, by simp [Text.isBlank]⟩
  unfold suffix takesValue
  cases a.action with
  | set => exact hvalue
  | append => exact hvalue
  | count => exact ⟨[], by simp, by simp⟩
  | switchOn => exact ⟨[], by simp, by simp⟩
  | help => exact ⟨[], by simp, by simp⟩

/-- **An argument that is shown is looked for as** its name or its id, with the dots of a
counted option or the brackets of an optional argument. -/
theorem Legible.ofText?_display (h : a.Legible) : Mention.ofText? a.display = some a.mention := by
  obtain ⟨rest, hsuffix, hrest⟩ := a.suffix_eq
  generalize hdots : (if a.action = .count then ['.', '.', '.'] else []) = dots at hsuffix
  have hplain : ∀ c ∈ dots, Text.isBlank c = false ∧ c ≠ '=' := by
    rw [← hdots]
    split <;> simp [Text.isBlank]
  have hend : ∀ c ∈ ([] : List Char).head?, Text.isBlank c = true := by simp
  rcases a.shape_cases with ⟨name, hlong, hdisplay, hmention⟩ | ⟨s, -, hshort, hdisplay, hmention⟩ |
    ⟨hpositional, -, hdisplay, hmention⟩ | ⟨hpositional, -, hdisplay, hmention⟩
  · have hdotted : (if a.action = .count then name ++ "..." else name) =
        String.ofList (name.toList ++ dots) := by
      rw [← hdots]
      split <;> simp [String.ofList_append]
    rw [hmention, hdotted]
    refine Mention.ofText?_long hrest ?_ (by simp [hdisplay, hsuffix])
    exact List.forall_mem_append.mpr ⟨h.long name hlong, hplain⟩
  · rw [hmention]
    exact Mention.ofText?_short hrest (h.short s hshort) (fun c hc => (hplain c hc).1)
      (by simp [hdisplay, hsuffix])
  · obtain ⟨-, hvalue⟩ := h.value hpositional
    have hword : ∀ c ∈ '<' :: (a.valueName.toList ++ ['>']), Text.isBlank c = false := by
      simp only [List.forall_mem_cons, List.forall_mem_append]
      exact ⟨rfl, fun c hc => (hvalue c hc).1, rfl, by simp⟩
    rw [hmention, Mention.ofText?_id hend (List.cons_ne_nil _ _) hword (by simp)
      (by simp [hdisplay]), Mention.bare_brackets fun c hc => (hvalue c hc).2, String.ofList_toList]
  · obtain ⟨-, hvalue⟩ := h.value hpositional
    have hword : ∀ c ∈ '[' :: (a.valueName.toList ++ [']']), Text.isBlank c = false := by
      simp only [List.forall_mem_cons, List.forall_mem_append]
      exact ⟨rfl, fun c hc => (hvalue c hc).1, rfl, by simp⟩
    have hshown : String.ofList ('[' :: (a.valueName.toList ++ [']'])) =
        "[" ++ a.valueName ++ "]" := String.toList_inj.mp (by simp)
    rw [hmention, Mention.ofText?_id hend (List.cons_ne_nil _ _) hword (by simp)
      (by simp [hdisplay]), Mention.bare_squares, hshown]

end Arg

/-! ## Whose help is shown -/

/-- Two bundles that have an option of one name clash. -/
theorem Bundle.Has.clashes {b b' : Bundle} {m : Mention} (h : b.Has m) (h' : b'.Has m)
    (hoption : ∀ text, m ≠ .id text) : b.Clashes b' := by
  obtain ⟨a, ha, hnames⟩ := h
  obtain ⟨a', ha', hnames'⟩ := h'
  cases m with
  | long name => exact ⟨_, .arg a a' _ ha ha' (.long name hnames hnames')⟩
  | short s => exact ⟨_, .arg a a' _ ha ha' (.short s hnames hnames')⟩
  | id text => exact absurd rfl (hoption text)

namespace Binder

variable {x : Binder} {b : Bundle} {a : Arg} {e : Complaint}

/-- The first word of a text names an argument of no bundle, or of every one. -/
def Untraced (x : Binder) (text : String) : Prop :=
  ∀ m, Mention.ofText? text = some m → (∀ b ∈ x.bundles, ¬b.Has m) ∨ ∀ b ∈ x.bundles, b.Has m

theorem scope_eq_bundles_iff_untraced {text : String} (h : e.subject? = some text) :
    x.scope e = x.bundles ↔ x.Untraced text := by
  have hmention : e.mention? = Mention.ofText? text := by rw [Complaint.mention?, h]; rfl
  unfold Untraced
  rw [← hmention]
  cases hm : e.mention? with
  | none => simp [scope, owners_eq_nil hm]
  | some m =>
    rw [scope_eq_bundles_iff hm]
    exact ⟨fun h m' heq => Option.some.inj heq ▸ h, fun h => h m rfl⟩

/-- The bundle of an argument is shown when it is the only one with what the argument is looked
for as. -/
theorem Apart.scope_eq_owner_iff (h : x.Apart) (hb : b ∈ x.bundles)
    (hsubject : e.subject? = some a.display) (hlegible : a.Legible) :
    x.scope e = [b] ↔ x.Only b a.mention := by
  refine h.scope_eq_singleton_iff hb ?_
  rw [Complaint.mention?, hsubject]
  exact hlegible.ofText?_display

/-- The name of an option is found in the bundle that declares it and in no other. -/
theorem Apart.only_of_has (h : x.Apart) (hb : b ∈ x.bundles) {m : Mention} (hhas : b.Has m)
    (hoption : ∀ text, m ≠ .id text) : x.Only b m := by
  refine .inr fun b' hb' => ⟨fun hhas' => ?_, fun heq => heq ▸ hhas⟩
  exact h.eq_of_clashes hb' hb (hhas'.clashes hhas hoption)

/-- An id is looked for in any case. -/
theorem only_congr {text text' : String} (h : Text.sameIgnoringCase text text' = true) :
    x.Only b (.id text) ↔ x.Only b (.id text') := by
  have hsame (b' : Bundle) : b'.Has (.id text) ↔ b'.Has (.id text') := by
    simp only [Bundle.Has, Mention.Names, Text.sameIgnoringCase, beq_iff_eq] at h ⊢
    rw [h]
  simp only [Only, hsame]

/-- **Whose help comes with a complaint** about a command line.  What is wrong is wrong with an
argument of a bundle, with the help option, or with a word that names no argument, and in each
case it is known when the bundle of the argument is all that is shown, or when all bundles
are. -/
inductive Scoped (x : Binder) (argv : List String) (e : Complaint) (shown : List Bundle) :
    Prop where
  /-- An option comes with the bundle that declares it. -/
  | option (b : Bundle) (hb : b ∈ x.bundles) (a : Arg) (ha : a ∈ b.args)
    (hsubject : e.subject? = some a.display) (hoption : a.isPositional = false)
    (hcount : a.action = .count → a.long = none) (hshown : a.Legible → shown = [b])
  /-- A counted option is looked for with the dots behind its long name. -/
  | counted (b : Bundle) (hb : b ∈ x.bundles) (a : Arg) (ha : a ∈ b.args)
    (hsubject : e.subject? = some a.display) (name : String) (hlong : a.long = some name)
    (hcount : a.action = .count)
    (hshown : a.Legible → (shown = [b] ↔ x.Only b (.long (name ++ "..."))))
  /-- A required argument comes with its bundle unless another one has its id in some case. -/
  | required (b : Bundle) (hb : b ∈ x.bundles) (a : Arg) (ha : a ∈ b.args)
    (hsubject : e.subject? = some a.display) (hpositional : a.isPositional = true)
    (hrequired : a.required = true) (hshown : a.Legible → (shown = [b] ↔ x.Only b (.id a.id)))
  /-- An optional argument is looked for with its brackets. -/
  | optional (b : Bundle) (hb : b ∈ x.bundles) (a : Arg) (ha : a ∈ b.args)
    (hsubject : e.subject? = some a.display) (hpositional : a.isPositional = true)
    (hrequired : a.required = false)
    (hshown : a.Legible → (shown = [b] ↔ x.Only b (.id ("[" ++ a.valueName ++ "]"))))
  /-- The help option comes with all bundles. -/
  | helpValue (value : String) (he : e = .unneededValue Arg.helpArg.display value)
    (hshown : shown = x.bundles)
  /-- So does a long name that no bundle has, unless there is a blank in it. -/
  | unknownLong (name : String) (he : e = .unknownArgument ("--" ++ name))
    (hfree : ∀ b ∈ x.bundles, ∀ a ∈ b.args, a.long ≠ some name)
    (hshown : shown = x.bundles ↔ x.Untraced ("--" ++ name))
    (hplain : (∀ c ∈ name.toList, Text.isBlank c = false) → shown = x.bundles)
  /-- So does a short name that no bundle has, unless it is a hyphen. -/
  | unknownShort (s : Char) (he : e = .unknownArgument ("-" ++ s.toString))
    (hfree : ∀ b ∈ x.bundles, ∀ a ∈ b.args, a.short ≠ some s)
    (hshown : shown = x.bundles ↔ x.Untraced ("-" ++ s.toString))
    (hplain : s ≠ '-' → shown = x.bundles)
  /-- A word without a place comes with all bundles unless some have what it seems to name. -/
  | word (text : String) (htext : text ∈ argv)
    (hplain : Word.ofString text = .plain text ∨ "--" ∈ argv) (he : e = .unknownArgument text)
    (hshown : shown = x.bundles ↔ x.Untraced text)

/-- Whose help comes with a complaint about an argument of a bundle. -/
theorem Apart.scoped_argument (h : x.Apart) (hb : b ∈ x.bundles) (ha : a ∈ b.args)
    (hsubject : e.subject? = some a.display) (argv : List String) :
    x.Scoped argv e (x.scope e) := by
  have howner (hlegible : a.Legible) : x.scope e = [b] ↔ x.Only b a.mention :=
    h.scope_eq_owner_iff hb hsubject hlegible
  rcases a.shape_cases with ⟨name, hlong, -, hmention⟩ | ⟨s, hlong, hshort, -, hmention⟩ |
    ⟨hpositional, hrequired, -, hmention⟩ | ⟨hpositional, hrequired, -, hmention⟩
  · rw [hmention] at howner
    by_cases hcount : a.action = .count
    · rw [if_pos hcount] at howner
      exact .counted b hb a ha hsubject name hlong hcount howner
    · rw [if_neg hcount] at howner
      refine .option b hb a ha hsubject (by simp [Arg.isPositional, hlong])
        (fun hc => absurd hc hcount) fun hlegible => (howner hlegible).mpr ?_
      exact h.only_of_has hb ⟨a, ha, hlong⟩ fun text heq => by cases heq
  · rw [hmention] at howner
    refine .option b hb a ha hsubject (by simp [Arg.isPositional, hshort]) (fun _ => hlong)
      fun hlegible => (howner hlegible).mpr ?_
    exact h.only_of_has hb ⟨a, ha, hshort⟩ fun text heq => by cases heq
  · rw [hmention] at howner
    refine .required b hb a ha hsubject hpositional hrequired fun hlegible => ?_
    rw [howner hlegible]
    exact (only_congr (hlegible.value hpositional).1).symm
  · rw [hmention] at howner
    exact .optional b hb a ha hsubject hpositional hrequired howner

/-- All bundles come with a complaint about an option that none of them has. -/
theorem scope_of_free {m : Mention} (hm : e.mention? = some m)
    (hfree : ∀ b ∈ x.bundles, ∀ a ∈ b.args, ¬m.Names a) : x.scope e = x.bundles :=
  (scope_eq_bundles_iff hm).mpr (.inl fun b hb ⟨a, ha, hnames⟩ => hfree b hb a ha hnames)

theorem mem_commandOf_args : a ∈ (commandOf x.program x.bundles).args ↔
    ∃ b ∈ x.bundles, a ∈ b.args := by
  simp [commandOf]

/-- Whose help comes with whatever a command line is refused for. -/
theorem Apart.scoped (h : x.Apart) {argv : List String} (hmistake : e.isHelp = false)
    (hfault : (commandOf x.program x.bundles).Fault argv e) : x.Scoped argv e (x.scope e) := by
  have hend : ∀ c ∈ ([] : List Char).head?, Text.isBlank c = true := by simp
  cases hfault with
  | help text => cases hmistake
  | argument a _ ha hsubject =>
    obtain ⟨b, hb, ha⟩ := mem_commandOf_args.mp ha
    exact h.scoped_argument hb ha hsubject argv
  | helpValue value hfree =>
    refine .helpValue value rfl (scope_of_free (m := .long "help") rfl fun b hb a ha => ?_)
    exact hfree a (mem_commandOf_args.mpr ⟨b, hb, ha⟩)
  | long name hname hfree =>
    have hfree' : ∀ b ∈ x.bundles, ∀ a ∈ b.args, a.long ≠ some name := fun b hb a ha =>
      hfree a (mem_commandOf_args.mpr ⟨b, hb, ha⟩)
    refine .unknownLong name rfl hfree' (scope_eq_bundles_iff_untraced rfl) fun hplain => ?_
    refine scope_of_free (m := .long name) ?_ hfree'
    have hread := Mention.ofText?_long hend
      (fun c hc => ⟨hplain c hc, fun heq => hname (heq ▸ hc)⟩)
      (show ("--" ++ name).toList = '-' :: '-' :: (name.toList ++ []) by simp)
    rwa [String.ofList_toList] at hread
  | short s hfree =>
    have hfree' : ∀ b ∈ x.bundles, ∀ a ∈ b.args, a.short ≠ some s := fun b hb a ha =>
      hfree a (mem_commandOf_args.mpr ⟨b, hb, ha⟩)
    refine .unknownShort s rfl hfree' (scope_eq_bundles_iff_untraced rfl) fun hhyphen => ?_
    cases hblank : Text.isBlank s with
    | false =>
      refine scope_of_free (m := .short s) ?_ hfree'
      exact Mention.ofText?_short hend ⟨hblank, hhyphen⟩ (fun c hc => absurd hc List.not_mem_nil)
        (show ("-" ++ s.toString).toList = '-' :: s :: ([] ++ []) by simp)
    | true =>
      -- a name that is a blank leaves a hyphen, which names nothing
      have hnothing : Mention.ofText? ("-" ++ s.toString) = none := by
        have hhead : ∀ c ∈ [s].head?, Text.isBlank c = true := by simpa using hblank
        rw [Mention.ofText?, Text.firstWord?_append (List.cons_ne_nil '-' [])
          (by simp [Text.isBlank]) hhead (by simp)]
        rfl
      refine (scope_eq_bundles_iff_untraced rfl).mpr fun m hm => ?_
      rw [hnothing] at hm
      cases hm
  | word text htext hplain => exact .word text htext hplain rfl (scope_eq_bundles_iff_untraced rfl)

theorem parse_refused {argv : List String} {shown : List Bundle}
    (hrefused : (commandOf x.program x.bundles).parse x.env argv = .error e)
    (hmistake : e.isHelp = false) (hshown : x.scope e = shown) :
    x.parse argv = .error (.parse e (firstLine e.message) (usageText x.program x.env shown)) := by
  rw [parse, hrefused, ← hshown, ← explain_eq hmistake]

/-- **A complaint comes with the help of the bundle that it belongs to**, as far as the bundle can
be read off the complaint.  A command line of bundles that bind together that is refused, and
not only asks for help, is complained about with the help of some bundles, and these are known
for whatever can be complained about. -/
theorem parse_scoped {program : String} {env : Environment} {bundles : List Bundle} {x : Binder}
    (hbind : ({ program, env } : Binder).bindAll bundles = .ok x) {argv : List String}
    {e : BindError} (hparse : x.parse argv = .error e) (hmistake : e.isInformational = false) :
    ∃ complaint shown,
      e = .parse complaint (firstLine complaint.message) (usageText x.program x.env shown) ∧
        x.Scoped argv complaint shown := by
  have hx : x.Apart := Apart.bindAll (x := { program, env }) List.Pairwise.nil hbind
  rw [parse] at hparse
  split at hparse
  · rename_i complaint hrefused
    cases hparse
    have hplain : complaint.isHelp = false := by rwa [explain_isInformational] at hmistake
    exact ⟨complaint, x.scope complaint, explain_eq hplain,
      hx.scoped hplain (Command.parse_fault hrefused)⟩
  · cases hparse

/-- A bundle with an option, whose value is missing, beside one with an optional argument. -/
theorem parse_scoped_missing :
    let letters : Bundle := {
      name := "letters", title := "Letters"
      args := [{ id := "alpha", long := some "alpha", short := some 'x', valueName := "ALPHA" }] }
    let extras : Bundle := {
      name := "extras", title := "Extras"
      args := [{ id := "extra", valueName := "EXTRA", type := .integer (-9) 9 }] }
    let x : Binder := { program := "bus", bundles := [letters, extras] }
    ({ program := "bus" } : Binder).bindAll [letters, extras] = .ok x ∧
      ∃ e, x.parse ["bus", "7", "-x"] = .error e ∧ e.isInformational = false ∧
        ∃ complaint shown,
          e = .parse complaint (firstLine complaint.message) (usageText x.program x.env shown) ∧
            x.Scoped ["bus", "7", "-x"] complaint shown := by
  intro letters extras x
  have hbind : ({ program := "bus" } : Binder).bindAll [letters, extras] = .ok x := rfl
  exact ⟨hbind, _, rfl, rfl, parse_scoped hbind rfl rfl⟩

/-- **An optional argument is traced to nobody, and a word to whom it does not belong.**  The
value of an optional argument is refused with the help of all bundles, not with that of its own
bundle, and a word that has no place with the help of a bundle that has it as an id. -/
theorem parse_unscoped :
    let letters : Bundle := {
      name := "letters", title := "Letters"
      args := [{ id := "alpha", long := some "alpha", short := some 'x', valueName := "ALPHA" }] }
    let extra : Arg := { id := "extra", valueName := "EXTRA", type := .integer (-9) 9 }
    let extras : Bundle := { name := "extras", title := "Extras", args := [extra] }
    let x : Binder := { program := "bus", bundles := [letters, extras] }
    ({ program := "bus" } : Binder).bindAll [letters, extras] = .ok x ∧
      (∃ complaint message, complaint.subject? = some extra.display ∧
        x.parse ["bus", "abc"] = .error (.parse complaint message x.usage)) ∧
      x.usage ≠ usageText x.program x.env [extras] ∧
      (∃ message, x.parse ["bus", "7", "alpha"] =
        .error (.parse (.unknownArgument "alpha") message
          (usageText x.program x.env [letters]))) ∧
      x.usage ≠ usageText x.program x.env [letters] := by
  intro letters extra extras x
  have hbrackets : x.scope (.badValue "[EXTRA]" "abc" "invalid digit found in string") =
      x.bundles := by
    have hletters : letters.owns "[EXTRA]" = false := by decide +kernel
    have hextras : extras.owns "[EXTRA]" = false := by decide +kernel
    have howners : [letters, extras].filter (fun b => b.owns "[EXTRA]") = [] := by
      simp [hletters, hextras]
    exact if_pos (congrArg List.isEmpty howners)
  have hword : x.scope (.unknownArgument "alpha") = [letters] := by
    have hletters : letters.owns "alpha" = true := by decide +kernel
    have hextras : extras.owns "alpha" = false := by decide +kernel
    have howners : x.owners (.unknownArgument "alpha") = [letters] := by
      show [letters, extras].filter (fun b => b.owns "alpha") = [letters]
      simp [hletters, hextras]
    rw [scope, howners]
    rfl
  exact ⟨rfl, ⟨.badValue "[EXTRA]" "abc" "invalid digit found in string", _, rfl,
    parse_refused rfl rfl hbrackets⟩, by decide +kernel, ⟨_, parse_refused rfl rfl hword⟩,
    by decide +kernel⟩

end Binder
end LaneBus
