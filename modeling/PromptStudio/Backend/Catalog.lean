import PromptStudio.Json.Decode

/-!
# Tools, models and changes to agents

What the backend has on offer for the agents of a workflow, and a change to one of them.
-/

namespace PromptStudio

/-- A tool that agents can call. -/
structure Tool where
  name : String
  description : String
  inputSchema : Value
  outputSchema : Value

namespace Tool

/-- Reads a tool. -/
def decode (src : Source) : Option Tool := do
  let fs ← src.fields? ["name", "description", "input_schema", "output_schema"]
  return {
    name := ← fs.need "name" Source.text?
    description := ← fs.orElse "description" "" Source.text?
    inputSchema := ← fs.orElse "input_schema" .null Source.value?
    outputSchema := ← fs.orElse "output_schema" .null Source.value? }

/-- Writes a tool. -/
def encode (t : Tool) : Json :=
  .obj [("name", .str t.name), ("description", .str t.description),
    ("input_schema", t.inputSchema.json), ("output_schema", t.outputSchema.json)]

end Tool

/-- A language model. -/
structure Model where
  id : String
  name : String
  description : String
deriving DecidableEq, Repr

namespace Model

/-- Reads a model. -/
def decode (src : Source) : Option Model := do
  let fs ← src.fields? ["id", "name", "description"]
  return {
    id := ← fs.need "id" Source.text?
    name := ← fs.need "name" Source.text?
    description := ← fs.orElse "description" "" Source.text? }

/-- Writes a model. -/
def encode (m : Model) : Json :=
  .obj [("id", .str m.id), ("name", .str m.name), ("description", .str m.description)]

end Model

/-- A change to an agent; what is missing stays as it is. -/
structure AgentUpdate where
  model : Option String
  instruction : Option String
  tools : Option (List String)
deriving DecidableEq, Repr

namespace AgentUpdate

/-- Reads a change. -/
def decode (src : Source) : Option AgentUpdate := do
  let fs ← src.fields? ["model", "instruction", "tools"]
  return {
    model := ← fs.maybe "model" Source.text?
    instruction := ← fs.maybe "instruction" Source.text?
    tools := ← fs.maybe "tools" (Source.list? Source.text?) }

/-- Writes a change. -/
def encode (u : AgentUpdate) : Json :=
  .record [("model", u.model.map .str), ("instruction", u.instruction.map .str),
    ("tools", u.tools.map fun ts => .arr (ts.map .str))]

end AgentUpdate

end PromptStudio
