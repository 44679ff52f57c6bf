import LaneBus.Lane
import Mathlib.Tactic.SplitIfs

/-! # Addresses and what they are made of

An address is formed of a topic and a lane, and cut at its last dash.  The name of a lane has
no dash, so the cut falls where the two were joined, whatever the topic contains
(`Text.cutLast?_eq_some`).  Behind it a lane is read in any case and accepted in upper case
only (`Lane.splitAddress?_eq`).

Hence an address is split into a topic and a lane exactly when the topic is not empty and the
address is formed of the two, and no address is formed of two pairs
(`Lane.addresses_correspond`).
-/
namespace LaneBus

namespace Text

variable {sep : Char} {s before after : List Char}

/-- A text that is not cut has no separator. -/
theorem not_mem_of_cutLast? (h : cutLast? sep s = none) : sep ∉ s := by
  induction s with
  | nil => exact List.not_mem_nil
  | cons c rest ih =>
    rw [cutLast?] at h
    split at h
    · cases h
    · rename_i hrest
      split_ifs at h with hc
      exact List.not_mem_cons_of_ne_of_not_mem (Ne.symm hc) (ih hrest)

/-- **A text is cut at its last separator**, the one that no other follows. -/
theorem cutLast?_eq_some :
    cutLast? sep s = some (before, after) ↔ s = before ++ sep :: after ∧ sep ∉ after := by
  constructor
  · intro h
    induction s generalizing before with
    | nil => cases h
    | cons c rest ih =>
      rw [cutLast?] at h
      split at h
      · rename_i hrest
        cases h
        obtain ⟨rfl, hafter⟩ := ih hrest
        exact ⟨rfl, hafter⟩
      · rename_i hrest
        split_ifs at h with hc
        cases h
        exact ⟨by rw [hc, List.nil_append], not_mem_of_cutLast? hrest⟩
  · rintro ⟨rfl, hafter⟩
    exact cutLast?_append hafter

end Text

namespace Lane

variable {address topic text : String} {lane : Lane}

/-! ## The names of lanes -/

/-- A lane is read from its own name. -/
theorem ofName?_name (lane : Lane) : ofName? lane.name = some lane := by
  cases lane <;> rfl

/-- No dash is read as part of a name, in whatever case it is written. -/
theorem separator_not_mem_of_ofName? (h : ofName? text = some lane) :
    separator ∉ text.toList := by
  intro hmem
  have hread := List.find?_some h
  have hsame : Text.asciiUpper lane.name = Text.asciiUpper text := eq_of_beq hread
  have hupper : separator.toUpper ∈ (Text.asciiUpper lane.name).toList := by
    rw [hsame, Text.asciiUpper, String.toList_ofList]
    exact List.mem_map_of_mem hmem
  cases lane <;> exact absurd hupper (by decide)

/-- The lane that a suffix names exactly. -/
theorem find?_name_eq_some {suffix : List Char} :
    (all.find? fun lane => lane.name.toList == suffix) = some lane ↔
      lane.name.toList = suffix := by
  constructor
  · intro h
    have hname := List.find?_some h
    exact eq_of_beq hname
  · rintro rfl
    cases lane <;> decide

/-- The lane that a suffix names exactly is the one that is read from it in any case, provided
that the suffix is its name. -/
theorem find?_name_eq (suffix : List Char) :
    (all.find? fun lane => lane.name.toList == suffix) =
      (ofName? (String.ofList suffix)).filter fun lane => lane.name.toList == suffix := by
  refine Option.ext fun lane => ?_
  rw [find?_name_eq_some, Option.filter_eq_some_iff, beq_iff_eq]
  constructor
  · rintro rfl
    exact ⟨by rw [String.ofList_toList, ofName?_name], rfl⟩
  · rintro ⟨-, h⟩
    exact h

/-! ## Splitting -/

/-- **How an address is split**: at its last dash, behind which a lane is read in any case and
then compared with its name. -/
theorem splitAddress?_eq (address : String) : splitAddress? address =
    (Text.cutLast? separator address.toList).bind fun (topic, suffix) =>
      if topic.isEmpty then none
      else ((ofName? (String.ofList suffix)).filter fun lane => lane.name.toList == suffix).map
        fun lane => (String.ofList topic, lane) := by
  unfold splitAddress?
  cases Text.cutLast? separator address.toList with
  | none => rfl
  | some parts =>
    obtain ⟨topic, suffix⟩ := parts
    dsimp only [Option.bind_some]
    rw [← find?_name_eq]

theorem toList_isEmpty_eq_false (h : topic ≠ "") : topic.toList.isEmpty = false := by
  rw [List.isEmpty_eq_false_iff]
  exact fun hnil => h (String.toList_inj.mp hnil)

/-- An address is split into what it is formed of, unless its topic is empty. -/
theorem splitAddress?_eq_some :
    splitAddress? address = some (topic, lane) ↔ topic ≠ "" ∧ lane.address topic = address := by
  constructor
  · intro h
    unfold splitAddress? at h
    split at h
    · cases h
    · rename_i front suffix hcut
      split_ifs at h with hempty
      obtain ⟨lane', hlane, hpair⟩ := Option.map_eq_some_iff.mp h
      cases hpair
      obtain ⟨hchars, -⟩ := Text.cutLast?_eq_some.mp hcut
      have hname := find?_name_eq_some.mp hlane
      refine ⟨fun hnil => ?_, String.toList_inj.mp ?_⟩
      · have hfront : front = [] := by
          rw [← String.toList_ofList (l := front), hnil, String.toList_empty]
        exact hempty (List.isEmpty_iff.mpr hfront)
      · rw [hchars, ← hname]
        simp [Lane.address]
  · rintro ⟨hne, rfl⟩
    unfold splitAddress?
    rw [cutLast?_address]
    dsimp only
    rw [toList_isEmpty_eq_false hne, find?_name_eq_some.mpr rfl, String.ofList_toList]
    rfl

/-- Behind a dash, a text in which a lane can be read counts only as the lane's name. -/
theorem splitAddress?_of_ofName? (topic : String) (h : ofName? text = some lane) :
    splitAddress? (topic ++ separator.toString ++ text) =
      if topic ≠ "" ∧ text = lane.name then some (topic, lane) else none := by
  have hcut : Text.cutLast? separator (topic ++ separator.toString ++ text).toList =
      some (topic.toList, text.toList) := by
    simp only [String.toList_append, List.append_assoc]
    exact Text.cutLast?_append (separator_not_mem_of_ofName? h)
  rw [splitAddress?_eq, hcut, Option.bind_some]
  dsimp only
  rw [String.ofList_toList, String.ofList_toList, h, Option.filter_some]
  by_cases hempty : topic = ""
  · subst hempty
    rfl
  · rw [toList_isEmpty_eq_false hempty, if_neg Bool.false_ne_true]
    by_cases hname : text = lane.name
    · rw [if_pos (beq_iff_eq.mpr (congrArg String.toList hname.symm)), Option.map_some,
        if_pos ⟨hempty, hname⟩]
    · have hchars : ¬(lane.name.toList == text.toList) = true := fun h =>
        hname (String.toList_inj.mp (eq_of_beq h)).symm
      rw [if_neg hchars, Option.map_none, if_neg fun h => hname h.2]

/-- **Addresses correspond to topics and lanes.**  An address is split into a topic and a lane
exactly when the topic is not empty and the two form the address; so either undoes the
other.  Behind the last dash a lane's name counts in upper case only, although the lane is
read from it in any case.  No two pairs form one address, empty topics included. -/
theorem addresses_correspond :
    (∀ address topic lane,
      splitAddress? address = some (topic, lane) ↔ topic ≠ "" ∧ Lane.address lane topic = address) ∧
    (∀ topic text lane, ofName? text = some lane →
      splitAddress? (topic ++ separator.toString ++ text) =
        if topic ≠ "" ∧ text = lane.name then some (topic, lane) else none) ∧
    ∀ (topic topic' : String) (lane lane' : Lane), lane.address topic = lane'.address topic' ↔
      lane = lane' ∧ topic = topic' :=
  ⟨fun _ _ _ => splitAddress?_eq_some, fun topic _ _ h => splitAddress?_of_ofName? topic h,
    fun _ _ _ _ => address_inj⟩

/-- A topic that ends as an address does, and a lane in mixed case. -/
theorem addresses_correspond_nested :
    splitAddress? "a-ERROR-NORMAL" = some ("a-ERROR", .normal) ∧
      ofName? "Normal" = some .normal ∧ splitAddress? "a-Normal" = none := by
  obtain ⟨hsplit, hcase, -⟩ := addresses_correspond
  have hread : ofName? "Normal" = some .normal := by decide
  exact ⟨(hsplit _ _ _).mpr (by decide), hread, hcase "a" "Normal" .normal hread⟩

end Lane
end LaneBus
