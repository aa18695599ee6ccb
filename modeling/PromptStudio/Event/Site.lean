import PromptStudio.Event.Family
import PromptStudio.Event.Tool

/-!
# Events of a site being built

The stream that follows the building and deploying of a website.
-/

namespace PromptStudio

/-- An event of a site being built. -/
inductive SiteEvent
  /-- A turn begins. -/
  | start (taskId : String) (data : Option Value)
  /-- More of the reply's text. -/
  | delta (content : String)
  /-- Tools are being called. -/
  | toolCall (calls : List ToolCall)
  /-- A tool call ended. -/
  | toolOutput (callId : String) (status : ToolStatus)
  /-- The build reached a stage. -/
  | progress (stage message : String)
  /-- A line of the build log. -/
  | log (content : String)
  /-- The site was deployed. -/
  | deployed (previewUrl message : String)
  /-- The stream is alive. -/
  | ping (timestamp : Int)
  /-- The turn ended well. -/
  | done (data : Option Value)
  /-- The turn failed. -/
  | error (reason message : Option String)

namespace SiteEvent

/-- The name of the variant. -/
def name : SiteEvent → String
  | .start .. => "start"
  | .delta .. => "delta"
  | .toolCall .. => "tool_call"
  | .toolOutput .. => "tool_output"
  | .progress .. => "progress"
  | .log .. => "log"
  | .deployed .. => "deploy_result"
  | .ping .. => "ping"
  | .done .. => "done"
  | .error .. => "error"

/-- The names of the variants. -/
def vocabulary : List String :=
  ["start", "delta", "tool_call", "tool_output", "progress", "log", "deploy_result", "ping",
    "done", "error"]

/-- The event of a variant with these fields. -/
def ofVariant? (variant : String) (src : Source) : Option SiteEvent :=
  match variant with
  | "start" => do
    let fs ← src.fields? ["taskId", "data"]
    return .start (← fs.need "taskId" Source.text?) (← fs.maybeValue "data")
  | "delta" => do
    let fs ← src.fields? ["content"]
    return .delta (← fs.need "content" Source.text?)
  | "tool_call" => do
    let fs ← src.fields? ["tool_calls"]
    return .toolCall (← fs.need "tool_calls" (Source.list? ToolCall.decode))
  | "tool_output" => do
    let fs ← src.fields? ["tool_call_id", "status"]
    return .toolOutput (← fs.need "tool_call_id" Source.text?)
      (← fs.need "status" (ToolStatus.decode .tagged))
  | "progress" => do
    let fs ← src.fields? ["stage", "message"]
    return .progress (← fs.need "stage" Source.text?) (← fs.orElse "message" "" Source.text?)
  | "log" => do
    let fs ← src.fields? ["content"]
    return .log (← fs.need "content" Source.text?)
  | "deploy_result" => do
    let fs ← src.fields? ["preview_url", "message"]
    return .deployed (← fs.need "preview_url" Source.text?)
      (← fs.orElse "message" "" Source.text?)
  | "ping" => do
    let fs ← src.fields? ["timestamp"]
    return .ping (← fs.need "timestamp" Source.int64?)
  | "done" => do
    let fs ← src.fields? ["data"]
    return .done (← fs.maybeValue "data")
  | "error" => do
    let fs ← src.fields? ["reason", "message"]
    return .error (← fs.maybe "reason" Source.text?) (← fs.maybe "message" Source.text?)
  | _ => none

/-- Older backends call the task of a start event `task_id`. The newer spelling wins where both are
there. -/
def modernize (variant : String) (members : List (String × Source)) : List (String × Source) :=
  if variant = "start" then
    let rest := members.filter (·.1 != "task_id")
    match members.lookup "task_id", members.lookup "taskId" with
    | some id, none => rest ++ [("taskId", id)]
    | _, _ => rest
  else members

/-- Writes an event. -/
def encode (e : SiteEvent) : Json :=
  .record (("type", some (.str e.name)) ::
    match e with
    | .start taskId data => [("taskId", some (.str taskId)), ("data", data.map Value.json)]
    | .delta content => [("content", some (.str content))]
    | .toolCall calls => [("tool_calls", some (.arr (calls.map ToolCall.encode)))]
    | .toolOutput callId status =>
      [("tool_call_id", some (.str callId)), ("status", some status.encode)]
    | .progress stage message => [("stage", some (.str stage)), ("message", some (.str message))]
    | .log content => [("content", some (.str content))]
    | .deployed previewUrl message =>
      [("preview_url", some (.str previewUrl)), ("message", some (.str message))]
    | .ping timestamp => [("timestamp", some (.int timestamp))]
    | .done data => [("data", data.map Value.json)]
    | .error reason message => [("reason", reason.map .str), ("message", message.map .str)])

/-- Ends the stream. -/
def isTerminal : SiteEvent → Bool
  | .done .. | .error .. => true
  | _ => false

/-- Only shows that the stream is alive. -/
def isKeepalive : SiteEvent → Bool
  | .ping .. => true
  | _ => false

/-- Why the backend gave up: the reason comes before the message. -/
def failure? : SiteEvent → Option String
  | .error reason message => some ((reason.or message).getD unknownReason)
  | _ => none

instance : EventFamily SiteEvent :=
  { vocabulary, ofVariant?, modernize, name, encode, isTerminal, isKeepalive, failure? }

end SiteEvent

end PromptStudio
