/-! # Printed text

What a terminal shows of a text: control characters other than white space do
not show, and neither do the sequences that an escape character begins.  Such a
sequence takes in the bytes of characters beyond ASCII one by one.
-/
namespace LaneBus
namespace Text

/-- Where a character stands in a sequence that an escape character begins. -/
inductive Escape where
  | outside
  /-- Behind the escape character. -/
  | begun
  /-- Behind a character that a last one has to follow. -/
  | unfinished
  /-- Behind the bracket that introduces parameters. -/
  | parameters
  /-- In a string that a bell ends. -/
  | title
  /-- Behind the letter that introduces the head of a string. -/
  | head
  /-- In the parameters of the head of a string. -/
  | headParameters
  /-- Behind the parameters of the head of a string. -/
  | headEnd
  /-- In a string that the byte 156 ends. -/
  | string
  deriving DecidableEq, Repr

/-- Whether a control character is white space. -/
def isSpaceControl (c : Char) : Bool := c = '\t' || c = '\n' || c = '\x0c' || c = '\r'

/-- Whether a character is one of the control characters of ASCII. -/
def isControl (c : Char) : Bool := c.toNat < 32 || c.toNat = 127

namespace Escape

/-- Where a visible character of ASCII leads behind the escape character. -/
def kind (c : Char) : Escape :=
  if c = '[' then .parameters
  else if c = ']' then .title
  else if c = 'P' then .head
  else if c = 'X' ∨ c = '^' ∨ c = '_' then .string
  else if c.toNat < 48 then .unfinished
  else .outside

/-- Where a visible character of ASCII leads within a sequence. -/
def afterVisible (c : Char) : Escape → Escape
  | outside => .outside
  | begun => kind c
  | unfinished => if c.toNat < 48 then .unfinished else .outside
  | parameters => if c.toNat < 64 then .parameters else .outside
  | title => .title
  | head => if c.toNat < 48 then .headEnd else if c.toNat < 64 then .headParameters else .string
  | headParameters =>
    if c.toNat < 48 then .headEnd else if c.toNat < 60 then .headParameters else .string
  | headEnd => if c.toNat < 48 then .headEnd else .string
  | string => .string

/-- Where a control character of ASCII leads within a sequence, and whether it
shows.  White space shows, and ends a sequence, except in strings. -/
def afterControl (c : Char) (state : Escape) : Escape × Bool :=
  match state with
  | outside => (.outside, isSpaceControl c)
  | title => (if c = '\x07' then .outside else .title, false)
  | head => (.head, false)
  | headParameters => (.headParameters, false)
  | headEnd => (.headEnd, false)
  | string => (.string, false)
  | within => if isSpaceControl c then (.outside, true) else (within, false)

/-- Where a character beyond ASCII leads within a sequence. -/
def afterWide (c : Char) : Escape → Escape
  | string => if (String.utf8EncodeChar c).contains 156 then .outside else .string
  | within => within

/-- Where a character leads, and whether it shows. -/
def next (c : Char) (state : Escape) : Escape × Bool :=
  if c = '\x1b' then (.begun, false)
  else if c = '\x18' ∨ c = '\x1a' then (.outside, false)
  else if isControl c then state.afterControl c
  else if c.toNat < 128 then (state.afterVisible c, state = .outside)
  else (state.afterWide c, state = .outside)

end Escape

/-- What shows of a text behind a part of a sequence. -/
def printedFrom (state : Escape) : List Char → List Char
  | [] => []
  | c :: rest =>
    let (state, shows) := state.next c
    if shows then c :: printedFrom state rest else printedFrom state rest

/-- What shows of a text. -/
def printed (s : List Char) : List Char := printedFrom .outside s

/-- A text in bold letters.  The sequence behind it ends any that it begins. -/
def emphasized (s : String) : String := "\x1b[1m" ++ s ++ "\x1b[0m"

theorem Escape.next_outside {c : Char} (h : isControl c = false) :
    Escape.next c .outside = (.outside, true) := by
  have hc : ¬(c = '\x1b') ∧ ¬(c = '\x18' ∨ c = '\x1a') := by
    refine ⟨?_, ?_⟩
    · rintro rfl
      exact absurd h (by decide)
    · rintro (rfl | rfl) <;> exact absurd h (by decide)
  by_cases hw : c.toNat < 128 <;>
    simp [Escape.next, hc.1, hc.2, h, hw, Escape.afterVisible, Escape.afterWide]

theorem printed_eq_self {s : List Char} (h : ∀ c ∈ s, isControl c = false) : printed s = s := by
  unfold printed
  induction s with
  | nil => rfl
  | cons c rest ih =>
    have hrest : printedFrom .outside rest = rest := ih fun d hd => h d (by simp [hd])
    simp [printedFrom, Escape.next_outside (h c (by simp)), hrest]

end Text
end LaneBus
