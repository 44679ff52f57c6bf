import LaneBus.Text

/-! # Lanes and addresses

A topic has three lanes: normal and priority traffic, and errors.  Each lane of
a topic is a log of its own, named by an address, so that a priority record
never waits behind normal ones.  An address is the topic, a dash and the name of
the lane; it is read back at its last dash, in upper case only, and never with
an empty topic.
-/
namespace LaneBus

/-- The routing channels of a topic. -/
inductive Lane where
  | normal
  | priority
  | error
  deriving DecidableEq, Repr

namespace Lane

/-- The lane's name on the wire and in addresses. -/
def name : Lane → String
  | normal => "NORMAL"
  | priority => "PRIORITY"
  | error => "ERROR"

/-- Every lane, in declaration order. -/
def all : List Lane := [normal, priority, error]

/-- The lanes of an ordinary subscription, the urgent one first. -/
def consumed : List Lane := [priority, normal]

/-- Whether records of the lane report failures. -/
def isError (lane : Lane) : Bool := lane == error

/-- The lane of a name, whatever the case of its ASCII letters. -/
def ofName? (text : String) : Option Lane :=
  all.find? fun lane => Text.sameIgnoringCase lane.name text

/-- The text reported for a name that is no lane. -/
def unknownMessage : String := "Matching variant not found"

/-- Joins a topic and a lane name. -/
def separator : Char := '-'

/-- The address of this lane of `topic`. -/
def address (lane : Lane) (topic : String) : String :=
  topic ++ separator.toString ++ lane.name

/-- The topic and lane that an address is made of. -/
def splitAddress? (address : String) : Option (String × Lane) :=
  match Text.cutLast? separator address.toList with
  | none => none
  | some (topic, suffix) =>
    if topic.isEmpty then none
    else (all.find? fun lane => lane.name.toList == suffix).map (String.ofList topic, ·)

theorem separator_not_mem_name (lane : Lane) : separator ∉ lane.name.toList := by
  cases lane <;> decide

/-- An address is cut between its topic and the name of its lane. -/
theorem cutLast?_address (lane : Lane) (topic : String) :
    Text.cutLast? separator (lane.address topic).toList =
      some (topic.toList, lane.name.toList) := by
  simp only [address, String.toList_append, List.append_assoc]
  exact Text.cutLast?_append lane.separator_not_mem_name

/-- An address names one lane of one topic. -/
theorem address_inj {lane lane' : Lane} {topic topic' : String} :
    lane.address topic = lane'.address topic' ↔ lane = lane' ∧ topic = topic' := by
  constructor
  · intro h
    have hsame := congrArg (fun a : String => Text.cutLast? separator a.toList) h
    simp only [cutLast?_address, Option.some.injEq, Prod.mk.injEq, String.toList_inj] at hsame
    refine ⟨?_, hsame.1⟩
    cases lane <;> cases lane' <;> first | rfl | exact absurd hsame.2 (by decide)
  · rintro ⟨rfl, rfl⟩
    rfl

end Lane
end LaneBus
