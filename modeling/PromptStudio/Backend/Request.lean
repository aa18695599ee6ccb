import PromptStudio.Backend.Catalog
import PromptStudio.Backend.Url
import PromptStudio.Settings

/-!
# Requests

The backend's endpoints. A request is made of a method, a path below the backend's base address and
perhaps a body; ids are put into paths as they are.
-/

namespace PromptStudio

/-- The method of a request. -/
inductive Method
  | get
  | post
  | put
  | patch
  | delete
deriving DecidableEq, Repr

/-- The name of a method. -/
def Method.name : Method → String
  | .get => "GET"
  | .post => "POST"
  | .put => "PUT"
  | .patch => "PATCH"
  | .delete => "DELETE"

/-- A request to the backend. -/
structure Request where
  method : Method
  path : String
  /-- Asks for an event stream. -/
  eventStream : Bool := false
  body : Option Json := none

namespace Request

/-- The body of a prompt. -/
def promptBody (workflowId : Option String) (text : String) : Json :=
  let turn : Json := .obj [("role", .str "user"), ("content", .arr [.obj [("text", .str text)]])]
  .record [("graph_id", workflowId.map .str), ("messages", some (.arr [turn]))]

/-- Submits a prompt that creates a workflow. -/
def submitWorkflow (text : String) : Request :=
  { method := .post, path := "/graphs/stream", body := some (promptBody none text) }

/-- Submits a prompt that builds or changes the site of a workflow. -/
def submitSite (workflowId text : String) : Request :=
  { method := .post
    path := "/web-builder/stream"
    body := some (promptBody (some workflowId) text) }

/-- Opens the stream of a workflow being built. -/
def workflowStream (executionId : String) : Request :=
  { method := .get, path := "/graphs/stream/" ++ executionId, eventStream := true }

/-- Opens the stream of a site being built. -/
def siteStream (executionId : String) : Request :=
  { method := .get, path := "/web-builder/stream/" ++ executionId, eventStream := true }

/-- Asks for the stored conversation about the site of a workflow. -/
def siteHistory (workflowId : String) : Request :=
  { method := .get, path := "/web-builder/history/" ++ workflowId }

/-- Asks for an execution. -/
def execution (id : String) : Request :=
  { method := .get, path := "/executions/get_by_id/" ++ id }

/-- Asks for a workflow. -/
def workflow (id : String) : Request :=
  { method := .get, path := "/graphs/get_by_id/" ++ id }

/-- Asks for a page of workflows, the most recently changed first. -/
def workflowPage (page size : Nat) : Request :=
  { method := .get
    path := "/graphs/page?page=" ++ toString page ++ "&size=" ++ toString size ++
      "&sort=updated_at:desc" }

/-- Asks for the tools on offer. -/
def tools : Request := { method := .get, path := "/tools/all" }

/-- Asks for the models on offer. -/
def models : Request := { method := .get, path := "/models/all" }

/-- Deletes a workflow. -/
def delete (id : String) : Request :=
  { method := .delete, path := "/graphs/delete_by_id/" ++ id }

/-- Renames a workflow. -/
def rename (id name : String) : Request :=
  { method := .put
    path := "/graphs/update_by_id/" ++ id
    body := some (.obj [("name", .str name)]) }

/-- Changes an agent of a workflow. -/
def updateAgent (workflowId agent : String) (update : AgentUpdate) : Request :=
  { method := .patch
    path := "/graphs/" ++ workflowId ++ "/spec"
    body := some (.obj [("agents", .obj [("update", .obj [(agent, update.encode)])])]) }

/-- The address of a request, as text that may not be an address. -/
def address (s : Settings) (r : Request) : String := s.endpoint r.path

end Request

end PromptStudio
