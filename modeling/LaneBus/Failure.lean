import LaneBus.Envelope

/-! # Failures

A failed unit of work has a kind, a message and the messages of its causes,
outermost first.  Its trace starts with kind and message and lists one cause a
line.
-/
namespace LaneBus

/-- What a callback that gave up in mid-work left behind. -/
inductive Panic where
  | text (message : String)
  | other

/-- A failed unit of work. -/
structure Failure where
  kind : String
  message : String
  causes : List String := []
  deriving DecidableEq, Repr

namespace Failure

/-- Kind and message. -/
def display (f : Failure) : String := f.kind ++ ": " ++ f.message

/-- Kind and message, and one line for each cause. -/
def trace (f : Failure) : String :=
  f.causes.foldl (fun text cause => text ++ "\ncaused by: " ++ cause) f.display

/-- The failure of a chain of messages, the outermost first. -/
def ofChain (kind : String) (messages : List String) : Failure :=
  { kind, message := messages.headD "", causes := messages.tail }

/-- The failure of a callback that gave up. -/
def ofPanic : Panic → Failure
  | .text message => { kind := "panic", message }
  | .other => { kind := "panic", message := "callback panicked" }

/-- The failure of an error with contexts around it, the outermost first. -/
def ofContexts (messages : List String) : Failure := ofChain "anyhow::Error" messages

/-- What an envelope carries of a failure. -/
def details (f : Failure) : ErrorDetails :=
  { kind := f.kind, message := f.message, trace := f.trace }

end Failure
end LaneBus
