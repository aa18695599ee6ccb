import PromptStudio.Backend.Query
import PromptStudio.Session.World
import PromptStudio.Stream.Outcome

/-!
# Operations

An operation sends a prompt, follows an earlier execution again, or loads a stored conversation. At
most of its stages it waits for the network; `receive` is the one step that it makes when what it
waits for arrives and nobody else holds the lock of the studio. Operations of a panel overlap:
whatever else happened in between has already changed the world when the step is made.
-/

namespace PromptStudio

/-- The stream that an operation followed, and how that ended. -/
structure StreamRun where
  graphId : String
  executionId : String
  outcome : Outcome
deriving DecidableEq, Repr

/-- What an operation has come to. -/
inductive Stage
  /-- The prompt has been submitted. -/
  | submitting (token : Token) (workflowId : Option String) (text : String)
  /-- The state of an earlier execution has been asked for. -/
  | lookingUp (executionId : String)
  /-- The stream has been asked for. -/
  | opening (token : Token) (graphId executionId : String)
  /-- The stream is being followed. -/
  | following (token : Token) (graphId executionId : String)
  /-- The stored conversation has been asked for. -/
  | loading (workflowId : String)
  /-- There is nothing more to do; a stream may have been followed. -/
  | finished (result : Except Failure (Option StreamRun))

/-- What arrives from the network. -/
inductive Arrival
  /-- The answer to a prompt. -/
  | ticket (r : Except Failure Ticket)
  /-- The state of an execution. -/
  | execution (r : Except Failure Execution)
  /-- The answer to the request for a stream. -/
  | opened (r : Except Failure Unit)
  /-- A stored conversation. -/
  | history (r : Except Failure (List Entry))
  /-- A frame of the stream. -/
  | frame (f : Frame)
  /-- The stream broke. -/
  | broken (cause : StreamFailure)
  /-- The stream ended. -/
  | closed
  /-- The stream has been silent for as long as is allowed. -/
  | silence
  /-- Nothing new; the operation only looks whether it has been cancelled. -/
  | woken

/-- An operation of a panel. -/
structure Operation where
  mode : Mode
  stage : Stage

namespace Operation

/-- The request that an operation waits for. -/
def request? (op : Operation) : Option Request :=
  match op.stage, op.mode with
  | .submitting _ _ text, .workflow => some (Query.submitWorkflow text).request
  | .submitting _ workflowId text, .webCreator =>
    some (Query.submitSite (workflowId.getD "") text).request
  | .lookingUp executionId, _ => some (Query.execution executionId).request
  | .opening _ _ executionId, .workflow => some (.workflowStream executionId)
  | .opening _ _ executionId, .webCreator => some (.siteStream executionId)
  | .loading workflowId, _ => some (Query.siteHistory workflowId).request
  | .following .., _ | .finished _, _ => none

/-- The result of an operation that has finished. -/
def result? (op : Operation) : Option (Except Failure (Option StreamRun)) :=
  match op.stage with
  | .finished r => some r
  | _ => none

/-- The token that the operation holds, from when it has taken its panel over until it finishes. -/
def token? (op : Operation) : Option Token :=
  match op.stage with
  | .submitting token _ _ | .opening token _ _ | .following token _ _ => some token
  | .lookingUp _ | .loading _ | .finished _ => none

/-- Ends an operation. -/
def finish (op : Operation) (r : Except Failure (Option StreamRun)) : Operation :=
  { op with stage := .finished r }

/-- The operation at the end of the stream it follows. -/
def finishWith (op : Operation) (graphId executionId : String) (o : Outcome) : Operation :=
  op.finish (.ok (some { graphId, executionId, outcome := o }))

/-- The step of an operation that follows a stream. Once the token has been cancelled nothing more
is applied, and whoever cancelled it has taken care of the panel. -/
def follow (w : World) (op : Operation) (token : Token) (graphId executionId : String)
    (a : Arrival) : World × Operation :=
  let done := op.finishWith graphId executionId
  if w.isCancelled op.mode token then (w, done .aborted)
  else
    match a with
    | .frame f =>
      let w := w.onStudio (World.applyFrame op.mode f)
      match World.endOf? op.mode f with
      | some o => (w.settle op.mode o, done o)
      | none => (w, op)
    | .broken cause => (w.settle op.mode (.disconnected cause), done (.disconnected cause))
    | .closed => (w.settle op.mode .ended, done .ended)
    | .silence =>
      let cause := StreamFailure.idle w.settings.idleSeconds
      (w.settle op.mode (.disconnected cause), done (.disconnected cause))
    | _ => (w, op)

/-- The step of an operation when `a` arrives; what it does not wait for changes nothing. -/
def receive (w : World) (op : Operation) (a : Arrival) : World × Operation :=
  match op.stage, a with
  | .submitting token _ _, .ticket (.ok t) =>
    ({ w with tasks := w.tasks.set (World.space op.mode) t.graphId t.executionId },
      { op with stage := .opening token t.graphId t.executionId })
  | .submitting .., .ticket (.error e) => (w.refuse op.mode e, op.finish (.error e))
  | .lookingUp executionId, .execution (.ok x) =>
    if x.status.isResumable then
      let (w, token) := w.takeOver op.mode
      (w.onStudio (·.setStreaming op.mode true),
        { op with stage := .opening token x.graphId executionId })
    else (w, op.finish (.ok none))
  | .lookingUp _, .execution (.error e) => (w, op.finish (.error e))
  | .opening token graphId executionId, .opened (.ok ()) =>
    (w, { op with stage := .following token graphId executionId })
  | .opening .., .opened (.error e) => (w.refuse op.mode e, op.finish (.error e))
  | .loading _, .history (.ok entries) =>
    (w.onStudio fun s => s.onPanel op.mode (·.load entries), op.finish (.ok none))
  | .loading _, .history (.error e) => (w, op.finish (.error e))
  | .following token graphId executionId, a => follow w op token graphId executionId a
  | _, _ => (w, op)

/-- What a reply means to an operation that waits for it; nothing, if the request for a stream never
comes to anything. -/
def arrivalOf? (op : Operation) (r : Reply) : Option Arrival :=
  match op.stage, op.mode with
  | .submitting _ _ text, .workflow => some (.ticket ((Query.submitWorkflow text).answer r))
  | .submitting _ workflowId text, .webCreator =>
    some (.ticket ((Query.submitSite (workflowId.getD "") text).answer r))
  | .lookingUp executionId, _ => some (.execution ((Query.execution executionId).answer r))
  | .opening _ _ executionId, _ =>
    (r.stream? executionId).map fun stream => .opened (stream.map fun _ => ())
  | .loading workflowId, _ => some (.history ((Query.siteHistory workflowId).answer r))
  | .following .., _ | .finished _, _ => none

/-- What arrives after a stream has been opened: its frames and failures, and how it ends. -/
def arrivalsOf (b : Body) : List Arrival :=
  let frames := b.frames.map fun
    | .ok f => Arrival.frame f
    | .error cause => Arrival.broken cause
  match b.ending with
  | .closed => frames ++ [.closed]
  | .cut => frames
  | .silent => frames ++ [.silence]

end Operation

namespace World

/-- Takes a panel over for a prompt, which is still to be recorded. -/
def claim (w : World) (mode : Mode) (workflowId : Option String) (text : String) :
    World × Operation :=
  let (w, token) := w.takeOver mode
  (w, { mode, stage := .submitting token workflowId text })

/-- Sends a prompt: takes the panel over and records the prompt, with nothing in between. -/
def send (w : World) (mode : Mode) (workflowId : Option String) (text : String) :
    World × Operation :=
  let (w, op) := w.claim mode workflowId text
  (w.onStudio (recordPrompt mode text), op)

/-- Follows the last execution of a workflow again, if one is remembered. -/
def resume (w : World) (mode : Mode) (workflowId : String) : World × Operation :=
  match w.tasks.get? (space mode) workflowId with
  | some executionId => (w, { mode, stage := .lookingUp executionId })
  | none => (w, { mode, stage := .finished (.ok none) })

/-- Replaces the transcript of the panel that builds sites by the stored conversation. -/
def loadHistory (w : World) (workflowId : String) : World × Operation :=
  (w, { mode := .webCreator, stage := .loading workflowId })

end World

end PromptStudio
