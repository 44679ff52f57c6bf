/-! # Text

Cutting a string at a known beginning, a known end or its last separator, and
the upper-case form that ignores everything but ASCII.  Cutting undoes appending:
what is left is returned exactly when the known part is there.
-/
namespace LaneBus
namespace Text

/-- What is left of a list of characters when it starts with `head`. -/
def afterFront? : (head s : List Char) → Option (List Char)
  | [], s => some s
  | _ :: _, [] => none
  | c :: head, d :: s => if c = d then afterFront? head s else none

/-- What is left of `s` when it starts with `head`. -/
def dropFront? (head s : String) : Option String :=
  (afterFront? head.toList s.toList).map String.ofList

/-- What is left of `s` when it ends in `tail`. -/
def dropBack? (tail s : String) : Option String :=
  (afterFront? tail.toList.reverse s.toList.reverse).map fun rest => String.ofList rest.reverse

/-- The parts before and after the last `sep` in a list of characters. -/
def cutLast? (sep : Char) : List Char → Option (List Char × List Char)
  | [] => none
  | c :: rest =>
    match cutLast? sep rest with
    | some (before, after) => some (c :: before, after)
    | none => if c = sep then some ([], rest) else none

/-- `s` with the letters a to z in upper case and every other character kept. -/
def asciiUpper (s : String) : String :=
  String.ofList (s.toList.map Char.toUpper)

/-- The parts joined, with `sep` between neighbours. -/
def join (sep : String) : List String → String
  | [] => ""
  | [part] => part
  | part :: rest => part ++ sep ++ join sep rest

/-- Whether two strings differ only in the case of ASCII letters. -/
def sameIgnoringCase (a b : String) : Bool :=
  asciiUpper a == asciiUpper b

theorem afterFront?_eq_some {head s rest : List Char} :
    afterFront? head s = some rest ↔ s = head ++ rest := by
  induction head generalizing s with
  | nil => simp [afterFront?]
  | cons c head ih =>
    cases s with
    | nil => simp [afterFront?]
    | cons d s =>
      by_cases h : c = d
      · simp [afterFront?, h, ih]
      · simp [afterFront?, h, Ne.symm h]

theorem dropFront?_eq_some {head s rest : String} :
    dropFront? head s = some rest ↔ s = head ++ rest := by
  simp only [dropFront?, Option.map_eq_some_iff, afterFront?_eq_some]
  constructor
  · rintro ⟨tail, h, rfl⟩
    exact String.toList_inj.1 (by simp [h])
  · rintro rfl
    exact ⟨rest.toList, by simp, by simp⟩

theorem dropBack?_eq_some {tail s rest : String} :
    dropBack? tail s = some rest ↔ s = rest ++ tail := by
  simp only [dropBack?, Option.map_eq_some_iff, afterFront?_eq_some]
  constructor
  · rintro ⟨front, h, rfl⟩
    refine String.toList_inj.1 ?_
    have h' := congrArg List.reverse h
    simpa using h'
  · rintro rfl
    exact ⟨rest.toList.reverse, by simp, by simp⟩

theorem cutLast?_eq_none {sep : Char} {s : List Char} (h : sep ∉ s) : cutLast? sep s = none := by
  induction s with
  | nil => rfl
  | cons c rest ih =>
    obtain ⟨hne, hrest⟩ := List.ne_and_not_mem_of_not_mem_cons h
    rw [cutLast?, ih hrest]
    exact if_neg (Ne.symm hne)

theorem cutLast?_append {sep : Char} {before after : List Char} (h : sep ∉ after) :
    cutLast? sep (before ++ sep :: after) = some (before, after) := by
  induction before with
  | nil => rw [List.nil_append, cutLast?, cutLast?_eq_none h]; exact if_pos rfl
  | cons c before ih => rw [List.cons_append, cutLast?, ih]

end Text
end LaneBus
