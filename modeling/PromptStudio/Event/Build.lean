import PromptStudio.Event.Family

/-!
# Events of a workflow being built

The stream that follows the building of a workflow graph.
-/

namespace PromptStudio

/-- An event of a workflow being built. -/
inductive BuildEvent
  /-- A turn begins. -/
  | start (data : Value)
  /-- The build entered a phase. -/
  | phase (step : String) (message : Option String)
  /-- The stream is alive. -/
  | ping (timestamp : Int)
  /-- The turn ended well. -/
  | done (data : Option Value)
  /-- The turn failed. -/
  | error (message reason code : Option String)

namespace BuildEvent

/-- The name of the variant. -/
def name : BuildEvent → String
  | .start .. => "start"
  | .phase .. => "phase"
  | .ping .. => "ping"
  | .done .. => "done"
  | .error .. => "error"

/-- The names of the variants. -/
def vocabulary : List String := ["start", "phase", "ping", "done", "error"]

/-- The event of a variant with these fields. -/
def ofVariant? (variant : String) (src : Source) : Option BuildEvent :=
  match variant with
  | "start" => do
    let fs ← src.fields? ["data"]
    return .start (← fs.orElse "data" .null Source.value?)
  | "phase" => do
    let fs ← src.fields? ["phase", "message"]
    return .phase (← fs.need "phase" Source.text?) (← fs.maybe "message" Source.text?)
  | "ping" => do
    let fs ← src.fields? ["timestamp"]
    return .ping (← fs.need "timestamp" Source.int64?)
  | "done" => do
    let fs ← src.fields? ["data"]
    return .done (← fs.maybeValue "data")
  | "error" => do
    let fs ← src.fields? ["message", "reason", "code"]
    return .error (← fs.maybe "message" Source.text?) (← fs.maybe "reason" Source.text?)
      (← fs.maybe "code" Source.text?)
  | _ => none

/-- No field of this family has an older spelling. -/
def modernize (_variant : String) (members : List (String × Source)) : List (String × Source) :=
  members

/-- Writes an event. -/
def encode (e : BuildEvent) : Json :=
  .record (("type", some (.str e.name)) ::
    match e with
    | .start data => [("data", some data.json)]
    | .phase step message => [("phase", some (.str step)), ("message", some (.textOrNull message))]
    | .ping timestamp => [("timestamp", some (.int timestamp))]
    | .done data => [("data", data.map Value.json)]
    | .error message reason code =>
      [("message", message.map .str), ("reason", reason.map .str), ("code", code.map .str)])

/-- Ends the stream. -/
def isTerminal : BuildEvent → Bool
  | .done .. | .error .. => true
  | _ => false

/-- Only shows that the stream is alive. -/
def isKeepalive : BuildEvent → Bool
  | .ping .. => true
  | _ => false

/-- Why the backend gave up: the message comes before the reason. -/
def failure? : BuildEvent → Option String
  | .error message reason _ => some ((message.or reason).getD unknownReason)
  | _ => none

instance : EventFamily BuildEvent :=
  { vocabulary, ofVariant?, modernize, name, encode, isTerminal, isKeepalive, failure? }

end BuildEvent

end PromptStudio
