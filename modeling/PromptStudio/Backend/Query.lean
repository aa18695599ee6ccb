import PromptStudio.Backend.Execution
import PromptStudio.Backend.Reply
import PromptStudio.Backend.Request
import PromptStudio.Chat.Entry

/-!
# Queries

The calls that expect a payload, each with its request and the type of its payload.
`Query.answer` is what such a call gives for a reply.
-/

namespace PromptStudio

/-- A call that expects a payload. -/
inductive Query
  | submitWorkflow (text : String)
  | submitSite (workflowId text : String)
  | siteHistory (workflowId : String)
  | execution (id : String)
  | workflow (id : String)
  | workflowPage (page size : Nat)
  | tools
  | models

namespace Query

/-- What the call gives. -/
def Payload : Query → Type
  | .submitWorkflow _ | .submitSite _ _ => Ticket
  | .siteHistory _ => List Entry
  | .execution _ => Execution
  | .workflow _ => Workflow
  | .workflowPage _ _ => Page Workflow
  | .tools => List Tool
  | .models => List Model

/-- The request that the call makes. -/
def request : Query → Request
  | .submitWorkflow text => .submitWorkflow text
  | .submitSite workflowId text => .submitSite workflowId text
  | .siteHistory workflowId => .siteHistory workflowId
  | .execution id => .execution id
  | .workflow id => .workflow id
  | .workflowPage page size => .workflowPage page size
  | .tools => .tools
  | .models => .models

/-- Reads the payload. -/
def decode : (q : Query) → Source → Option q.Payload
  | .submitWorkflow _ | .submitSite _ _ => Ticket.decode
  | .siteHistory _ => Source.list? Entry.decode
  | .execution _ => Execution.decode
  | .workflow _ => Workflow.decode
  | .workflowPage _ _ => Page.decode Workflow.decode
  | .tools => Source.list? Tool.decode
  | .models => Source.list? Model.decode

/-- What the call gives for a reply. -/
def answer (q : Query) (r : Reply) : Except Failure q.Payload := r.payload q.decode

end Query

end PromptStudio
