import PromptStudio.Failure

/-!
# Outcomes

How the following of an event stream ended.
-/

namespace PromptStudio

/-- How the following of a stream ended. -/
inductive Outcome
  /-- A done event came. -/
  | completed
  /-- An error event came. -/
  | failed (reason : String)
  /-- It was cancelled. -/
  | aborted
  /-- The transport failed or fell silent. -/
  | disconnected (cause : StreamFailure)
  /-- The stream ended without a terminal event. -/
  | ended
deriving DecidableEq, Repr

namespace Outcome

/-- The turn ended well. -/
def isSuccess (o : Outcome) : Bool := o = .completed

/-- The turn was left open. -/
def isInterrupted : Outcome → Bool
  | .aborted | .disconnected _ | .ended => true
  | _ => false

/-- The outcome of a terminal event. -/
def ofFailure : Option String → Outcome
  | some reason => .failed reason
  | none => .completed

end Outcome

end PromptStudio
