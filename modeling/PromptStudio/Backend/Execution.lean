import PromptStudio.Workflow.Detail

/-!
# Executions

Every turn the backend works on is an execution. A ticket names the execution of a turn just
submitted; its status tells whether its event stream can still be followed.
-/

namespace PromptStudio

/-- What an execution does. -/
inductive ExecutionKind
  | graphBuilder
  | webhook
  | webBuilder
  | deploy
deriving DecidableEq, Repr

namespace ExecutionKind

/-- The name on the wire. -/
def tag : ExecutionKind → String
  | .graphBuilder => "graph_builder"
  | .webhook => "webhook"
  | .webBuilder => "web_builder"
  | .deploy => "deploy"

/-- The kind of a name. -/
def ofTag? : String → Option ExecutionKind
  | "graph_builder" => some .graphBuilder
  | "webhook" => some .webhook
  | "web_builder" => some .webBuilder
  | "deploy" => some .deploy
  | _ => none

/-- Reads a kind. -/
def decode (src : Source) : Option ExecutionKind := (src.choice? .plain).bind ofTag?

/-- Writes a kind. -/
def encode (k : ExecutionKind) : Json := .str k.tag

end ExecutionKind

/-- How far an execution has come. -/
inductive ExecutionStatus
  | completed
  | pending
  | running
  | failed
  | cancelled
deriving DecidableEq, Repr

namespace ExecutionStatus

/-- The name on the wire. -/
def tag : ExecutionStatus → String
  | .completed => "completed"
  | .pending => "pending"
  | .running => "running"
  | .failed => "failed"
  | .cancelled => "cancelled"

/-- The status of a name. -/
def ofTag? : String → Option ExecutionStatus
  | "completed" => some .completed
  | "pending" => some .pending
  | "running" => some .running
  | "failed" => some .failed
  | "cancelled" => some .cancelled
  | _ => none

/-- Only a running execution can be followed again. -/
def isResumable (s : ExecutionStatus) : Bool := s = .running

/-- Reads a status. -/
def decode (src : Source) : Option ExecutionStatus := (src.choice? .plain).bind ofTag?

/-- Writes a status. -/
def encode (s : ExecutionStatus) : Json := .str s.tag

end ExecutionStatus

/-- An execution as the backend reports it. -/
structure Execution where
  id : String
  kind : ExecutionKind
  status : ExecutionStatus
  error : Option String
  graphId : String
  sessionId : String
  createdAt : Instant
  startedAt : Option Instant
  completedAt : Option Instant
  updatedAt : Instant
deriving DecidableEq

namespace Execution

/-- Reads an execution. -/
def decode (src : Source) : Option Execution := do
  let fs ← src.fields? ["id", "type", "status", "error", "graph_id", "session_id", "created_at",
    "started_at", "completed_at", "updated_at"]
  return {
    id := ← fs.need "id" Source.text?
    kind := ← fs.need "type" ExecutionKind.decode
    status := ← fs.need "status" ExecutionStatus.decode
    error := ← fs.maybe "error" Source.text?
    graphId := ← fs.need "graph_id" Source.text?
    sessionId := ← fs.orElse "session_id" "" Source.text?
    createdAt := ← fs.need "created_at" Instant.decode
    startedAt := ← fs.maybe "started_at" Instant.decode
    completedAt := ← fs.maybe "completed_at" Instant.decode
    updatedAt := ← fs.need "updated_at" Instant.decode }

/-- Writes an execution. -/
def encode (e : Execution) : Json :=
  .obj [("id", .str e.id), ("type", e.kind.encode), ("status", e.status.encode),
    ("error", .textOrNull e.error), ("graph_id", .str e.graphId), ("session_id", .str e.sessionId),
    ("created_at", e.createdAt.encode), ("started_at", .textOrNull (e.startedAt.map Instant.text)),
    ("completed_at", .textOrNull (e.completedAt.map Instant.text)),
    ("updated_at", e.updatedAt.encode)]

end Execution

/-- What the backend hands out for a turn just submitted. -/
structure Ticket where
  sessionId : String
  executionId : String
  graphId : String
deriving DecidableEq, Repr

namespace Ticket

/-- Reads a ticket. -/
def decode (src : Source) : Option Ticket := do
  let fs ← src.fields? ["session_id", "execution_id", "graph_id"]
  return {
    sessionId := ← fs.need "session_id" Source.text?
    executionId := ← fs.need "execution_id" Source.text?
    graphId := ← fs.need "graph_id" Source.text? }

/-- Writes a ticket. -/
def encode (t : Ticket) : Json :=
  .obj [("session_id", .str t.sessionId), ("execution_id", .str t.executionId),
    ("graph_id", .str t.graphId)]

end Ticket

end PromptStudio
