import PromptStudio.Graph.Layering

/-!
# Positions of nodes

A node's layer gives its place from left to right, and its place among the nodes of the same layer,
in order of first mention, its place from top to bottom. The sizes may be numbers of any kind: the
program uses doubles, and laws are stated of whole numbers.
-/

namespace PromptStudio.Graph

/-- The sizes of a drawing. -/
structure Layout (α : Type) where
  nodeWidth : α
  nodeHeight : α
  hGap : α
  vGap : α
  topPadding : α

/-- Where a node is drawn. -/
structure Position (α : Type) where
  x : α
  y : α
deriving DecidableEq

/-- Numbers that measure a drawing. -/
class Measure (α : Type) extends Add α, Mul α where
  /-- A natural number as a measure. -/
  ofNat : Nat → α

instance : Measure Nat where
  ofNat n := n

instance : Measure Int where
  ofNat n := n

instance : Measure Float where
  ofNat := Float.ofNat

variable {α : Type} [Measure α]

namespace Layout

/-- The usual sizes. -/
def standard : Layout α where
  nodeWidth := Measure.ofNat 260
  nodeHeight := Measure.ofNat 120
  hGap := Measure.ofNat 120
  vGap := Measure.ofNat 24
  topPadding := Measure.ofNat 120

/-- The left end of a layer. -/
def x (l : Layout α) (layer : Nat) : α := Measure.ofNat layer * (l.nodeWidth + l.hGap)

/-- The top of the `n`th node of a layer. -/
def y (l : Layout α) (n : Nat) : α := l.topPadding + Measure.ofNat n * (l.nodeHeight + l.vGap)

/-- Reads sizes. -/
def decode (src : Source) : Option (Layout Float) := do
  let fs ← src.fields? ["node_width", "node_height", "h_gap", "v_gap", "top_padding"]
  return {
    nodeWidth := ← fs.need "node_width" Source.double?
    nodeHeight := ← fs.need "node_height" Source.double?
    hGap := ← fs.need "h_gap" Source.double?
    vGap := ← fs.need "v_gap" Source.double?
    topPadding := ← fs.need "top_padding" Source.double? }

/-- Writes sizes. -/
def encode (l : Layout Float) : Json :=
  .obj [("node_width", .double l.nodeWidth), ("node_height", .double l.nodeHeight),
    ("h_gap", .double l.hGap), ("v_gap", .double l.vGap), ("top_padding", .double l.topPadding)]

end Layout

namespace Position

/-- Reads a position. -/
def decode (src : Source) : Option (Position Float) := do
  let fs ← src.fields? ["x", "y"]
  return {
    x := ← fs.need "x" Source.double?
    y := ← fs.need "y" Source.double? }

/-- Writes a position. -/
def encode (p : Position Float) : Json := .obj [("x", .double p.x), ("y", .double p.y)]

end Position

/-- How many nodes of each layer have been placed. -/
abbrev Slots := List (Nat × Nat)

/-- Counts one more node of a layer. -/
def Slots.add (layer : Nat) : Slots → Slots
  | [] => [(layer, 1)]
  | s :: ss => if s.1 == layer then (layer, s.2 + 1) :: ss else s :: Slots.add layer ss

/-- Places nodes whose layers are given, after those that `slots` counts. -/
def place (l : Layout α) (layers : Numbering) (slots : Slots) :
    List String → List (String × Position α)
  | [] => []
  | id :: ids =>
    let layer := (layers.lookup id).getD 0
    let slot := (slots.lookup layer).getD 0
    (id, { x := l.x layer, y := l.y slot }) :: place l layers (slots.add layer) ids

/-- The position of each node. -/
def positions (l : Layout α) (ids : List String) (edges : List Edge) :
    List (String × Position α) :=
  place l (layers ids edges) [] (distinct ids)

end PromptStudio.Graph
