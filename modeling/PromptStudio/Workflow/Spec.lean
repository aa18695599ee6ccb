import PromptStudio.Json.Decode

/-!
# Workflow specifications

A specification names the agents of a workflow, its other nodes, and the edges between them.
-/

namespace PromptStudio

/-- An edge of a workflow. -/
structure Edge where
  source : String
  target : String
deriving DecidableEq, Repr

namespace Edge

/-- Reads an edge. -/
def decode (src : Source) : Option Edge := do
  let fs ← src.fields? ["from_node", "to_node"]
  return {
    source := ← fs.need "from_node" Source.text?
    target := ← fs.need "to_node" Source.text? }

/-- Writes an edge. -/
def encode (e : Edge) : Json := .obj [("from_node", .str e.source), ("to_node", .str e.target)]

end Edge

/-- An agent of a workflow. -/
structure Agent where
  name : String
  model : String
  instruction : String
  category : String
  tools : List String
  outputSchema : Option Value

namespace Agent

/-- Reads an agent. -/
def decode (src : Source) : Option Agent := do
  let fs ← src.fields?
    ["name", "model", "instruction", "category", "tools", "structured_output_schema"]
  return {
    name := ← fs.need "name" Source.text?
    model := ← fs.orElse "model" "" Source.text?
    instruction := ← fs.orElse "instruction" "" Source.text?
    category := ← fs.orElse "category" "" Source.text?
    tools := ← fs.orElse "tools" [] (Source.list? Source.text?)
    outputSchema := ← fs.maybeValue "structured_output_schema" }

/-- Writes an agent. -/
def encode (a : Agent) : Json :=
  .record [("name", some (.str a.name)), ("model", some (.str a.model)),
    ("instruction", some (.str a.instruction)), ("category", some (.str a.category)),
    ("tools", some (.arr (a.tools.map .str))),
    ("structured_output_schema", a.outputSchema.map Value.json)]

end Agent

/-- What a workflow consists of. -/
structure Spec where
  agents : List Agent
  nodes : List String
  edges : List Edge
  entryPoint : String
  inputSchema : Value
  outputSchema : Value

namespace Spec

/-- Reads a specification. -/
def decode (src : Source) : Option Spec := do
  let fs ← src.fields?
    ["agents", "nodes", "edges", "entry_point", "input_schema", "output_schema"]
  return {
    agents := ← fs.orElse "agents" [] (Source.list? Agent.decode)
    nodes := ← fs.orElse "nodes" [] (Source.list? Source.text?)
    edges := ← fs.orElse "edges" [] (Source.list? Edge.decode)
    entryPoint := ← fs.orElse "entry_point" "" Source.text?
    inputSchema := ← fs.orElse "input_schema" .null Source.value?
    outputSchema := ← fs.orElse "output_schema" .null Source.value? }

/-- Writes a specification. -/
def encode (s : Spec) : Json :=
  .obj [("agents", .arr (s.agents.map Agent.encode)), ("nodes", .arr (s.nodes.map .str)),
    ("edges", .arr (s.edges.map Edge.encode)), ("entry_point", .str s.entryPoint),
    ("input_schema", s.inputSchema.json), ("output_schema", s.outputSchema.json)]

end Spec

end PromptStudio
