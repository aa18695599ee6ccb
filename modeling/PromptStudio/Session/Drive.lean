import PromptStudio.Backend.Change
import PromptStudio.Session.Operation
import PromptStudio.Studio.Library

/-!
# Driving operations

Runs one operation after the other against a backend, which is any way of getting a reply to a
request. An operation makes at most two requests before its stream is open.
-/

namespace PromptStudio

/-- Lets everything arrive that the body of a stream holds. -/
def Operation.consume (w : World) (op : Operation) (arrivals : List Arrival) : World × Operation :=
  arrivals.foldl (fun s a => s.2.receive s.1 a) (w, op)

/-- What an operation does with the reply it waits for. An open stream is followed to its end; an
operation whose request for a stream never comes to anything goes on waiting. -/
def Operation.take (w : World) (op : Operation) (r : Reply) : World × Operation :=
  match op.stage, op.arrivalOf? r with
  | _, none => (w, op)
  | .opening _ _ executionId, some a =>
    let (w, op) := op.receive w a
    match r.stream? executionId with
    | some (.ok body) => op.consume w (Operation.arrivalsOf body)
    | _ => (w, op)
  | _, some a => op.receive w a

variable {m : Type → Type} [Monad m]

namespace Operation

/-- Makes the request that an operation waits for. -/
def round (exchange : Request → m Reply) (s : World × Operation) : m (World × Operation) :=
  match s.2.request? with
  | some request => do return s.2.take s.1 (← exchange request)
  | none => return s

/-- Runs an operation to its end, or to where it waits for ever. -/
def drive (exchange : Request → m Reply) (s : World × Operation) : m (World × Operation) := do
  round exchange (← round exchange s)

/-- The result of an operation that was run to its end, for one who does not wait for ever. -/
def outcome (op : Operation) : Except Failure (Option StreamRun) :=
  op.result?.getD (.error (.other "the operation has not finished"))

end Operation

/-- Calls the backend once. -/
def call {α : Type} (exchange : Request → m Reply) (request : Request)
    (read : Reply → Except Failure α) : m (Except Failure α) := do
  return read (← exchange request)

/-- Makes a call that expects a payload. -/
def Query.call (exchange : Request → m Reply) (q : Query) : m (Except Failure q.Payload) :=
  PromptStudio.call exchange q.request q.answer

/-- Makes a call that changes a workflow. -/
def Change.call (exchange : Request → m Reply) (c : Change) : m (Except Failure Unit) :=
  PromptStudio.call exchange c.request c.answer

/-- The backend of the library. -/
def WorkflowBackend.ofExchange (exchange : Request → m Reply) : WorkflowBackend m where
  list page size := (Query.workflowPage page size).call exchange
  delete id := (Change.delete id).call exchange
  rename id name := (Change.rename id name).call exchange

end PromptStudio
