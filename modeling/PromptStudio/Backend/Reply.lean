import PromptStudio.Backend.Envelope
import PromptStudio.Json.Reader
import PromptStudio.Sse.Decoder

/-!
# Replies

What comes back for a request: nothing, or a status and a body, which may break off or fall silent.
`Reply.payload`, `Reply.unit` and `Reply.stream?` read a reply as the three kinds of calls need it.
-/

namespace PromptStudio

/-- How a body ends. -/
inductive Ending
  /-- Properly. -/
  | closed
  /-- The connection breaks. -/
  | cut
  /-- Nothing comes any more. -/
  | silent
deriving DecidableEq, Repr

/-- A body as it arrives. -/
structure Body where
  chunks : List (List UInt8)
  ending : Ending
deriving DecidableEq, Repr

/-- What comes back for a request. -/
inductive Reply
  /-- No answer: the reason given by the transport. -/
  | lost (reason : String)
  /-- An answer. -/
  | answer (status : Nat) (body : Body)
deriving DecidableEq, Repr

/-- The transport's reason for a body that breaks off. -/
def brokenBody : String := "error decoding response body"

namespace Body

/-- All octets of the body. -/
def octets? (b : Body) : Except Failure (List UInt8) :=
  if b.ending = .closed then .ok b.chunks.flatten else .error (.http brokenBody)

/-- The body as text, for a message to the user. A body that falls silent is given up like one that
breaks off. -/
def text (b : Body) : String :=
  if b.ending = .closed then String.ofList (Text.lossy b.chunks.flatten)
  else "failed to read response body"

/-- The frames and failures of a body that is an event stream. A silent one just stops. -/
def frames (b : Body) : List (Except StreamFailure Frame) :=
  match b.ending with
  | .closed => Sse.frames (b.chunks.map .ok)
  | .cut => Sse.frames (b.chunks.map .ok ++ [.error brokenBody])
  | .silent => (({} : Sse.Decoder).push b.chunks.flatten).1.map .ok

end Body

/-- The reason in the body of a refusal: its member `message` or `detail` if that is text, else the
whole body. -/
def refusalReason (body : String) : String :=
  match Value.ofText? body with
  | some v =>
    let text? := fun name => (v.json.member? name).bind Json.text?
    ((text? "message").or (text? "detail")).getD body
  | none => body

namespace Reply

/-- The body of a successful answer. This is for requests that are given up after a while; a request
for an event stream is not (`stream?`). -/
def success : Reply → Except Failure Body
  | .lost reason => .error (.http reason)
  | .answer status body =>
    if 200 ≤ status && status < 300 then .ok body
    else .error (.api status (refusalReason body.text))

/-- The payload in the envelope of a successful answer. -/
def payload {α : Type} (read : Source → Option α) (r : Reply) : Except Failure α := do
  let body ← r.success
  let octets ← body.octets?
  match (Source.read octets).bind (Envelope.decode read none) with
  | some e => e.payload
  | none => .error .unreadable

/-- The success of an edit. An envelope in the answer is checked for a failing code. -/
def unit (r : Reply) : Except Failure Unit := do
  let body ← r.success
  let octets ← body.octets?
  let read := fun (s : Source) => s.value?.map Value.nonNull?
  match (Source.read octets).bind (Envelope.decode read (some none)) with
  | some e => e.payload.map fun _ => ()
  | none => .ok ()

/-- The body of an event stream; the status 404 says that the execution is not known. Every other
refusal is read to its end, for its reason, and nothing bounds that: where the body of a refusal
falls silent, nothing ever comes of the request. -/
def stream? (executionId : String) (r : Reply) : Option (Except Failure Body) :=
  match r with
  | .lost reason => some (.error (.http reason))
  | .answer 404 _ => some (.error (.stream (.unknownExecution executionId)))
  | .answer _ body =>
    match r.success with
    | .error e => if body.ending = .silent then none else some (.error e)
    | .ok body => some (.ok body)

/-- The body of an event stream, for one who does not wait for ever. -/
def stream (executionId : String) (r : Reply) : Except Failure Body :=
  (r.stream? executionId).getD (.error (.other "the reply has not come to its end"))

end Reply

end PromptStudio
