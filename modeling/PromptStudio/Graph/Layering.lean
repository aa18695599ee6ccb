import PromptStudio.Workflow.Spec

/-!
# Layers of a graph

The nodes of a workflow are drawn in layers. Nodes without incoming edges are taken first, on layer
0; taking a node moves the targets of its edges at least one layer behind it and uses those edges
up, and a node all of whose incoming edges are used up is taken next. Edges with an end outside the
graph do not count. `Work` is the state between two nodes taken, `layers` the result.
-/

namespace PromptStudio.Graph

/-- The ids of a list that are not in `seen`, each at its first place. -/
def distinctFrom (seen : List String) : List String → List String
  | [] => []
  | id :: ids =>
    if seen.contains id then distinctFrom seen ids else id :: distinctFrom (id :: seen) ids

/-- The ids of a list, each at its first place. -/
def distinct (ids : List String) : List String := distinctFrom [] ids

/-- The edges whose two ends are nodes. -/
def kept (ids : List String) (edges : List Edge) : List Edge :=
  edges.filter fun e => ids.contains e.source && ids.contains e.target

/-- The targets of the edges that leave a node, in order. -/
def targets (edges : List Edge) (id : String) : List String :=
  (edges.filter (·.source == id)).map (·.target)

/-- The number of edges that enter a node. -/
def indegree (edges : List Edge) (id : String) : Nat :=
  (edges.filter (·.target == id)).length

/-- A number for some of the nodes. -/
abbrev Numbering := List (String × Nat)

/-- Gives a node a number. -/
def Numbering.put (id : String) (n : Nat) : Numbering → Numbering
  | [] => [(id, n)]
  | m :: ms => if m.1 == id then (id, n) :: ms else m :: Numbering.put id n ms

/-- The nodes to be taken next, and for each node its incoming edges not used up and, once it is
known, its layer. -/
structure Work where
  queue : List String
  unused : Numbering
  layer : Numbering
deriving DecidableEq, Repr

namespace Work

/-- Before any node is taken. -/
def start (ids : List String) (edges : List Edge) : Work :=
  let sources := ids.filter fun id => indegree edges id = 0
  { queue := sources
    unused := ids.map fun id => (id, indegree edges id)
    layer := sources.map fun id => (id, 0) }

/-- Uses up an edge from a node on this layer to `target`. -/
def follow (w : Work) (layer : Nat) (target : String) : Work :=
  let w := { w with
    layer := w.layer.put target (max ((w.layer.lookup target).getD 0) (layer + 1)) }
  match w.unused.lookup target with
  | none => w
  | some n =>
    { w with
      unused := w.unused.put target (n - 1)
      queue := if n - 1 = 0 then w.queue ++ [target] else w.queue }

/-- Takes the first node of the queue. -/
def take (edges : List Edge) (w : Work) : Work :=
  match w.queue with
  | [] => w
  | id :: queue =>
    let layer := (w.layer.lookup id).getD 0
    (targets edges id).foldl (fun w target => w.follow layer target) { w with queue }

/-- Takes up to `n` nodes. -/
def run (edges : List Edge) (w : Work) : Nat → Work
  | 0 => w
  | n + 1 => run edges (w.take edges) n

end Work

/-- The layer of each node. No node is taken twice, so as many steps as there are nodes are
enough. -/
def layers (ids : List String) (edges : List Edge) : Numbering :=
  let ids := distinct ids
  let edges := kept ids edges
  let done := (Work.start ids edges).run edges ids.length
  ids.map fun id => (id, (done.layer.lookup id).getD 0)

end PromptStudio.Graph
