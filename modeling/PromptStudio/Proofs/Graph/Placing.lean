import PromptStudio.Graph.Position
import PromptStudio.Proofs.Graph.Longest

/-!
# Places of nodes

Nodes stand from left to right by their layers (`lookup_positions_x`), for sizes of any kind.
-/

namespace PromptStudio.Graph

variable {α : Type} [Measure α]

theorem lookup_place_x (l : Layout α) (layers : Numbering) (slots : Slots) (ids : List String)
    (v : String) :
    ((place l layers slots ids).lookup v).map Position.x =
      if v ∈ ids then some (l.x ((layers.lookup v).getD 0)) else none := by
  induction ids generalizing slots with
  | nil => rfl
  | cons id ids ih =>
    unfold place
    dsimp only
    rw [lookup_cons]
    by_cases hv : v = id
    · simp [hv]
    · simp [hv, ih]

/-- A node stands at the left end of its layer. -/
theorem lookup_positions_x (l : Layout α) (ids : List String) (edges : List Edge) (v : String) :
    ((positions l ids edges).lookup v).map Position.x = ((layers ids edges).lookup v).map l.x := by
  unfold positions
  rw [lookup_place_x, lookup_layers]
  split <;> rfl

end PromptStudio.Graph
