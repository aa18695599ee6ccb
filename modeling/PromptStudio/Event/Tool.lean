import PromptStudio.Json.Decode

/-!
# Tool calls

The backend's agents announce the tools they call and report how each call ended.
-/

namespace PromptStudio

/-- How a tool call ended. -/
inductive ToolStatus
  | success
  | error
deriving DecidableEq, Repr

namespace ToolStatus

/-- The name on the wire. -/
def tag : ToolStatus → String
  | .success => "success"
  | .error => "error"

/-- The status of a name. -/
def ofTag? : String → Option ToolStatus
  | "success" => some .success
  | "error" => some .error
  | _ => none

/-- Reads a status. -/
def decode (place : Source.Place) (src : Source) : Option ToolStatus :=
  (src.choice? place).bind ofTag?

/-- Writes a status. -/
def encode (s : ToolStatus) : Json := .str s.tag

end ToolStatus

/-- A tool call as it is announced. -/
structure ToolCall where
  callId : String
  tool : String
  args : Value

namespace ToolCall

/-- Reads a tool call. -/
def decode (src : Source) : Option ToolCall := do
  let fs ← src.fields? ["tool_call_id", "tool_name", "args"]
  return {
    callId := ← fs.need "tool_call_id" Source.text?
    tool := ← fs.need "tool_name" Source.text?
    args := ← fs.orElse "args" .null Source.value? }

/-- Writes a tool call. -/
def encode (c : ToolCall) : Json :=
  .obj [("tool_call_id", .str c.callId), ("tool_name", .str c.tool), ("args", c.args.json)]

end ToolCall

end PromptStudio
