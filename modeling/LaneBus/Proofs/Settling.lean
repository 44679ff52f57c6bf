import LaneBus.Proofs.Tokens
import Mathlib.Data.List.TakeWhile

/-! # Readers that settle on a text

What a reader makes of a text should not depend on what comes behind.  A reader settles on a
text if it reads it as one result whatever follows, and leaves what follows, or refuses it
whatever follows (`Settles`).  Only a number may go on in what follows, so that has to start
with something else (`EndsNumber`), as blanks do and all that closes a value.

A reader that is given a number of steps settles on a text if any number above the length of
the text makes no difference (`SettlesIn`).
-/
namespace LaneBus
namespace Json

/-! ## Blanks -/

/-- A text of blanks only. -/
structure Gap where
  chars : List Char
  blank : ∀ c ∈ chars, isSpace c = true

namespace Gap

variable {rest : List Char}

/-- No blanks at all. -/
def none : Gap := ⟨[], fun _ hc => absurd hc List.not_mem_nil⟩

theorem skipSpace_append (gap : Gap) (rest : List Char) :
    skipSpace (gap.chars ++ rest) = skipSpace rest :=
  List.dropWhile_append_of_pos gap.blank

theorem skipSpace_chars (gap : Gap) : skipSpace gap.chars = [] := by
  have hskip := gap.skipSpace_append []
  rwa [List.append_nil] at hskip

theorem isDigit_of_isSpace {c : Char} (h : isSpace c = true) :
    c.isDigit = false ∧ c ≠ '.' ∧ c ≠ 'e' ∧ c ≠ 'E' := by
  simp only [isSpace, Bool.or_eq_true, decide_eq_true_eq] at h
  rcases h with ((rfl | rfl) | rfl) | rfl <;> decide

/-- No number goes on behind blanks. -/
theorem endsNumber (gap : Gap) (h : EndsNumber rest) : EndsNumber (gap.chars ++ rest) := by
  intro c hc
  cases hgap : gap.chars with
  | nil =>
    rw [hgap, List.nil_append] at hc
    exact h c hc
  | cons d cs =>
    rw [hgap] at hc
    cases hc
    exact isDigit_of_isSpace (gap.blank c (by rw [hgap]; exact List.mem_cons_self))

end Gap

/-- A reader takes no notice of blanks in front. -/
def SkipsBlanks {α : Type} (R : Reader α) : Prop :=
  ∀ (gap : Gap) (rest : List Char), R (gap.chars ++ rest) = R rest

theorem exists_gap (s : List Char) : ∃ gap : Gap, s = gap.chars ++ skipSpace s :=
  ⟨⟨s.takeWhile isSpace, fun _ hc => List.mem_takeWhile_imp hc⟩,
    (List.takeWhile_append_dropWhile ..).symm⟩

theorem SkipsBlanks.skipSpace {α : Type} {R : Reader α} (h : SkipsBlanks R) (s : List Char) :
    R (Json.skipSpace s) = R s := by
  obtain ⟨gap, hgap⟩ := exists_gap s
  rw [← h gap, ← hgap]

/-! ## Settling -/

section

variable {α β : Type} {R : Reader α} {R' : Reader β} {t t' : List Char}

/-- A text is read as a result, whatever follows it. -/
def Reads (R : Reader α) (t : List Char) (x : α) : Prop :=
  ∀ rest, EndsNumber rest → R (t ++ rest) = .ok (x, rest)

/-- A text is refused, whatever follows it. -/
def Refuses (R : Reader α) (t : List Char) : Prop :=
  ∀ rest, EndsNumber rest → ∃ fault, R (t ++ rest) = .error fault

/-- **A reader settles on a text** if what it makes of it does not depend on what follows. -/
inductive Settles (R : Reader α) (t : List Char) : Prop where
  | reads (x : α) (h : Reads R t x)
  | refuses (h : Refuses R t)

/-- Where two readers do the same on two texts, they settle alike. -/
theorem Settles.congr {R' : Reader α} (h : Settles R t)
    (hsame : ∀ rest, EndsNumber rest → R' (t' ++ rest) = R (t ++ rest)) : Settles R' t' := by
  cases h with
  | reads x h => exact .reads x fun rest hrest => by rw [hsame rest hrest, h rest hrest]
  | refuses h => exact .refuses fun rest hrest => by rw [hsame rest hrest]; exact h rest hrest

theorem Settles.mapRead (h : Settles R t) (f : α → β) :
    Settles (fun s => mapRead f (R s)) t := by
  cases h with
  | reads x h => exact .reads (f x) fun rest hrest => by rw [h rest hrest]; rfl
  | refuses h =>
    refine .refuses fun rest hrest => ?_
    obtain ⟨fault, hfault⟩ := h rest hrest
    exact ⟨fault, by rw [hfault]; rfl⟩

/-- One reader after another. -/
def andThen (R : Reader α) (next : α → Reader β) : Reader β := fun s =>
  match R s with
  | .error e => .error e
  | .ok (x, rest) => next x rest

theorem andThen_ok {next : α → Reader β} {s rest : List Char} {x : α} (h : R s = .ok (x, rest)) :
    andThen R next s = next x rest := by
  rw [andThen, h]

theorem andThen_error {next : α → Reader β} {s : List Char} {fault : Fault}
    (h : R s = .error fault) : andThen R next s = .error fault := by
  rw [andThen, h]

theorem andThen_toOption (next : α → Reader β) (s : List Char) :
    (andThen R next s).toOption = (R s).toOption.bind fun (x, rest) => (next x rest).toOption := by
  rw [andThen]
  cases R s <;> rfl

/-- A text in two parts is settled part by part. -/
theorem Settles.andThen {next : α → Reader β} (h : Settles R t)
    (hends : ∀ rest, EndsNumber rest → EndsNumber (t' ++ rest))
    (hnext : ∀ x, Settles (next x) t') : Settles (andThen R next) (t ++ t') := by
  have hjoin (rest : List Char) : t ++ t' ++ rest = t ++ (t' ++ rest) := List.append_assoc ..
  cases h with
  | refuses h =>
    refine .refuses fun rest hrest => ?_
    obtain ⟨fault, hfault⟩ := h _ (hends rest hrest)
    exact ⟨fault, by rw [hjoin, andThen_error hfault]⟩
  | reads x h =>
    exact (hnext x).congr fun rest hrest => by rw [hjoin, andThen_ok (h _ (hends rest hrest))]

/-- What a text is read as, if it is read. -/
def result? (R : Reader α) (t : List Char) : Option α := (R t).toOption.map Prod.fst

theorem Reads.result? {x : α} (h : Reads R t x) : result? R t = some x := by
  have hwhole := h [] endsNumber_nil
  rw [List.append_nil] at hwhole
  rw [Json.result?, hwhole]
  rfl

theorem Refuses.result? (h : Refuses R t) : result? R t = none := by
  obtain ⟨fault, hfault⟩ := h [] endsNumber_nil
  rw [List.append_nil] at hfault
  rw [Json.result?, hfault]
  rfl

theorem result?_mapRead (R : Reader α) (f : α → β) (t : List Char) :
    Json.result? (fun s => Json.mapRead f (R s)) t = (Json.result? R t).map f := by
  rw [Json.result?, Json.result?]
  cases R t <;> rfl

/-- **What a reader settles on** is what it makes of the text alone. -/
theorem Settles.toOption (h : Settles R t) {rest : List Char} (hrest : EndsNumber rest) :
    (R (t ++ rest)).toOption = (result? R t).map fun x => (x, rest) := by
  cases h with
  | reads x h =>
    rw [h.result?, h rest hrest]
    rfl
  | refuses h =>
    obtain ⟨fault, hfault⟩ := h rest hrest
    rw [h.result?, hfault]
    rfl

/-- A reader whose result on a text does not depend on what follows settles on it. -/
theorem Settles.of_toOption {x? : Option α} (h : ∀ rest, EndsNumber rest →
    (R (t ++ rest)).toOption = x?.map fun x => (x, rest)) : Settles R t := by
  cases x? with
  | some x =>
    refine .reads x fun rest hrest => ?_
    have hread := h rest hrest
    cases hresult : R (t ++ rest) with
    | error fault =>
      rw [hresult] at hread
      cases hread
    | ok read =>
      rw [hresult] at hread
      rw [Option.some.inj hread]
  | none =>
    refine .refuses fun rest hrest => ?_
    have hread := h rest hrest
    cases hresult : R (t ++ rest) with
    | error fault => exact ⟨fault, rfl⟩
    | ok read =>
      rw [hresult] at hread
      cases hread

/-! ## Readers that count steps -/

/-- A reader with steps settles on a text if those above its length make no difference. -/
inductive SettlesIn (R : Nat → Reader α) (t : List Char) : Prop where
  | reads (x : α) (h : ∀ steps, t.length < steps → Reads (R steps) t x)
  | refuses (h : ∀ steps, t.length < steps → Refuses (R steps) t)

/-- With as many steps as there are characters left, a reader has enough. -/
theorem SettlesIn.settles {R : Nat → Reader α} (h : SettlesIn R t) :
    Settles (fun s => R (s.length + 1) s) t := by
  have henough (rest : List Char) : t.length < (t ++ rest).length + 1 := by
    rw [List.length_append]
    omega
  cases h with
  | reads x h => exact .reads x fun rest hrest => h _ (henough rest) rest hrest
  | refuses h => exact .refuses fun rest hrest => h _ (henough rest) rest hrest

theorem SettlesIn.mapRead {R : Nat → Reader α} (h : SettlesIn R t) (f : α → β) :
    SettlesIn (fun steps s => Json.mapRead f (R steps s)) t := by
  cases h with
  | reads x h =>
    exact .reads (f x) fun steps hsteps rest hrest => by rw [h steps hsteps rest hrest]; rfl
  | refuses h =>
    refine .refuses fun steps hsteps rest hrest => ?_
    obtain ⟨fault, hfault⟩ := h steps hsteps rest hrest
    exact ⟨fault, by rw [hfault]; rfl⟩

/-- **A step in a loop**: a reader that reads one part of a text, and the rest of it with a step
less, settles part by part. -/
theorem SettlesIn.step {loop : Nat → Reader β} {next : α → Nat → Reader β} {whole : List Char}
    (h : Settles R t) (hends : ∀ rest, EndsNumber rest → EndsNumber (t' ++ rest))
    (hnext : ∀ x, SettlesIn (next x) t') (hlength : t'.length < whole.length)
    (hsame : ∀ steps rest, loop (steps + 1) (whole ++ rest) =
      Json.andThen R (fun x => next x steps) (t ++ (t' ++ rest))) : SettlesIn loop whole := by
  cases h with
  | refuses h =>
    refine .refuses fun steps hsteps rest hrest => ?_
    obtain ⟨steps, rfl⟩ := Nat.exists_eq_succ_of_ne_zero (Nat.ne_zero_of_lt hsteps)
    obtain ⟨fault, hfault⟩ := h _ (hends rest hrest)
    exact ⟨fault, (hsame steps rest).trans (andThen_error hfault)⟩
  | reads x h =>
    have hread (steps : Nat) (rest : List Char) (hrest : EndsNumber rest) :
        loop (steps + 1) (whole ++ rest) = next x steps (t' ++ rest) :=
      (hsame steps rest).trans (andThen_ok (h _ (hends rest hrest)))
    cases hnext x with
    | reads y hy =>
      refine .reads y fun steps hsteps rest hrest => ?_
      obtain ⟨steps, rfl⟩ := Nat.exists_eq_succ_of_ne_zero (Nat.ne_zero_of_lt hsteps)
      exact (hread steps rest hrest).trans (hy steps (by omega) rest hrest)
    | refuses hrefused =>
      refine .refuses fun steps hsteps rest hrest => ?_
      obtain ⟨steps, rfl⟩ := Nat.exists_eq_succ_of_ne_zero (Nat.ne_zero_of_lt hsteps)
      obtain ⟨fault, hfault⟩ := hrefused steps (by omega) rest hrest
      exact ⟨fault, (hread steps rest hrest).trans hfault⟩

end

end Json
end LaneBus
