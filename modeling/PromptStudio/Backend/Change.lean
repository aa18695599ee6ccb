import PromptStudio.Backend.Reply
import PromptStudio.Backend.Request

/-!
# Changes

The calls that change a workflow and expect no payload, each with its request. `Change.answer` is
what such a call gives for a reply.
-/

namespace PromptStudio

/-- A call that changes a workflow. -/
inductive Change
  | delete (id : String)
  | rename (id name : String)
  | updateAgent (workflowId agent : String) (update : AgentUpdate)

namespace Change

/-- The request that the call makes. -/
def request : Change → Request
  | .delete id => .delete id
  | .rename id name => .rename id name
  | .updateAgent workflowId agent update => .updateAgent workflowId agent update

/-- What the call gives for a reply. -/
def answer (_ : Change) (r : Reply) : Except Failure Unit := r.unit

end Change

end PromptStudio
