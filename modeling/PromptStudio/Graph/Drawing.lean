import PromptStudio.Graph.Position

/-!
# Drawings of workflows

A specification is drawn with a node for each agent, in order, then one for each other node, and
with the edges whose two ends are drawn.
-/

namespace PromptStudio.Graph

/-- What a node stands for. -/
inductive NodeKind
  | agent
  | processor
deriving DecidableEq, Repr

namespace NodeKind

/-- The name on the wire. -/
def tag : NodeKind → String
  | .agent => "agent"
  | .processor => "processor"

/-- The kind of a name. -/
def ofTag? : String → Option NodeKind
  | "agent" => some .agent
  | "processor" => some .processor
  | _ => none

/-- Reads a kind. -/
def decode (src : Source) : Option NodeKind := (src.choice? .plain).bind ofTag?

/-- Writes a kind. -/
def encode (k : NodeKind) : Json := .str k.tag

end NodeKind

/-- A drawn node. -/
structure DrawnNode (α : Type) where
  id : String
  kind : NodeKind
  position : Position α
  data : Value
  isEntry : Bool

/-- A drawn edge. -/
structure DrawnEdge where
  id : String
  source : String
  target : String
deriving DecidableEq, Repr

/-- A drawn workflow. -/
structure Drawing (α : Type) where
  nodes : List (DrawnNode α)
  edges : List DrawnEdge

/-! ## Drawing a specification -/

/-- The details of an agent that its node shows. -/
def agentData (a : Agent) : Value :=
  .ofMembers [("name", .str a.name), ("model", .str a.model), ("category", .str a.category),
    ("tools", .arr (a.tools.map .str)), ("instruction", .str a.instruction)]

/-- The ids of a specification's nodes: its agents, then its other nodes. -/
def nodeIds (s : Spec) : List String := distinct (s.agents.map (·.name) ++ s.nodes)

/-- What the node `id` stands for and shows: the first agent of that name, or only its name. -/
def nodeData (s : Spec) (id : String) : NodeKind × Value :=
  match s.agents.find? (·.name == id) with
  | some a => (.agent, agentData a)
  | none => (.processor, .ofMembers [("name", .str id)])

/-- An edge, named for its ends. -/
def drawnEdge (e : Edge) : DrawnEdge :=
  { id := e.source ++ "->" ++ e.target, source := e.source, target := e.target }

namespace Drawing

variable {α : Type}

/-- The node `id`. -/
def node? (d : Drawing α) (id : String) : Option (DrawnNode α) := d.nodes.find? (·.id == id)

/-- Draws a specification. -/
def ofSpec [Measure α] (s : Spec) : Drawing α :=
  let ids := nodeIds s
  let places := positions (Layout.standard : Layout α) ids s.edges
  let origin : Position α := ⟨Measure.ofNat 0, Measure.ofNat 0⟩
  { nodes := ids.map fun id =>
      { id
        kind := (nodeData s id).1
        position := (places.lookup id).getD origin
        data := (nodeData s id).2
        isEntry := !s.entryPoint.isEmpty && s.entryPoint == id }
    edges := (kept ids s.edges).map drawnEdge }

end Drawing

/-! ## Wire form -/

namespace DrawnNode

/-- Reads a node. -/
def decode (src : Source) : Option (DrawnNode Float) := do
  let fs ← src.fields? ["id", "type", "position", "data", "entry"]
  return {
    id := ← fs.need "id" Source.text?
    kind := ← fs.need "type" NodeKind.decode
    position := ← fs.need "position" Position.decode
    data := ← fs.need "data" Source.value?
    isEntry := ← fs.orElse "entry" false Source.bool? }

/-- Writes a node. -/
def encode (n : DrawnNode Float) : Json :=
  .record [("id", some (.str n.id)), ("type", some n.kind.encode),
    ("position", some n.position.encode), ("data", some n.data.json),
    ("entry", if n.isEntry then some (.bool true) else none)]

end DrawnNode

namespace DrawnEdge

/-- Reads an edge. -/
def decode (src : Source) : Option DrawnEdge := do
  let fs ← src.fields? ["id", "source", "target"]
  return {
    id := ← fs.need "id" Source.text?
    source := ← fs.need "source" Source.text?
    target := ← fs.need "target" Source.text? }

/-- Writes an edge. -/
def encode (e : DrawnEdge) : Json :=
  .obj [("id", .str e.id), ("source", .str e.source), ("target", .str e.target)]

end DrawnEdge

namespace Drawing

/-- Reads a drawing. -/
def decode (src : Source) : Option (Drawing Float) := do
  let fs ← src.fields? ["nodes", "edges"]
  return {
    nodes := ← fs.need "nodes" (Source.list? DrawnNode.decode)
    edges := ← fs.need "edges" (Source.list? DrawnEdge.decode) }

/-- Writes a drawing. -/
def encode (d : Drawing Float) : Json :=
  .obj [("nodes", .arr (d.nodes.map DrawnNode.encode)),
    ("edges", .arr (d.edges.map DrawnEdge.encode))]

end Drawing

end PromptStudio.Graph
