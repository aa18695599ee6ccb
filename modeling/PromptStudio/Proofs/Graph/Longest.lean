import PromptStudio.Proofs.Graph.Invariant
import PromptStudio.Proofs.Graph.Walk

/-!
# Layers are depths

Along the edges of the nodes that have been taken layers grow, and a layer other than 0 is one more
than that of a node before, so the layer of a node taken is the length of the longest walk to it
(`Sound.isDepth`). In the end exactly the grounded nodes have been taken, so these are on the layers
of their depths (`layers_isDepth`).
-/

namespace PromptStudio.Graph

variable {ids taken : List String} {edges : List Edge} {u v : String} {w : Work} {n : Nat}

namespace Work.Sound

/-- Edges into nodes that have been taken come from such nodes, on earlier layers. -/
theorem ranked (h : Sound ids edges taken w) :
    ∀ e ∈ edges, e.target ∈ taken → e.source ∈ taken ∧ w.layerOf e.source < w.layerOf e.target := by
  intro e he htarget
  have hready := (h.ready e.target).mp (List.mem_append_left _ htarget)
  have hsource : e.source ∈ taken := pending_eq_zero.mp hready.2 e he rfl
  exact ⟨hsource, h.above e he hsource⟩

theorem grounded (h : Sound ids edges taken w) (hv : v ∈ taken) : Grounded edges v :=
  grounded_of_rank h.ranked hv

/-- Going back from node to node while the layer is not 0 gives a walk of that length. -/
theorem exists_walk (h : Sound ids edges taken w) (v : String) :
    ∃ u, Walk edges u v (w.layerOf v) := by
  induction hn : w.layerOf v generalizing v with
  | zero => exact ⟨v, .here v⟩
  | succ n ih =>
    rcases h.reached v with hzero | ⟨e, he, rfl, _, hlayer⟩
    · omega
    · obtain ⟨u, hwalk⟩ := ih e.source (by omega)
      exact ⟨u, .on hwalk he⟩

theorem isDepth (h : Sound ids edges taken w) (hv : v ∈ taken) :
    IsDepth edges v (w.layerOf v) := by
  refine ⟨h.exists_walk v, ?_⟩
  rintro n ⟨u, hwalk⟩
  exact (Nat.le_add_left _ _).trans (hwalk.rank_le h.ranked hv).2

/-- When nothing is queued any more, the grounded nodes have been taken. -/
theorem mem_of_grounded (h : Sound ids edges taken w) (hdone : w.queue = [])
    (hedges : ∀ e ∈ edges, e.source ∈ ids) (hv : v ∈ ids) (hgrounded : Grounded edges v) :
    v ∈ taken := by
  refine hgrounded.induction (P := (· ∈ taken)) hedges (fun x hx hsources => ?_) hv
  have hready := (h.ready x).mpr ⟨hx, pending_eq_zero.mpr hsources⟩
  rwa [hdone, List.append_nil] at hready

end Work.Sound

/-! ## The layers -/

/-- The work when all nodes that can be taken have been taken. -/
def Work.finish (ids : List String) (edges : List Edge) : Work :=
  (Work.start (distinct ids) (kept ids edges)).run (kept ids edges) (distinct ids).length

theorem layers_eq_map (ids : List String) (edges : List Edge) :
    layers ids edges = (distinct ids).map fun id => (id, (Work.finish ids edges).layerOf id) := by
  unfold layers
  dsimp only
  rw [kept_distinct]
  rfl

theorem mem_layers : (v, n) ∈ layers ids edges ↔
    v ∈ ids ∧ n = (Work.finish ids edges).layerOf v := by
  rw [layers_eq_map]
  simp [eq_comm]

theorem lookup_layers (ids : List String) (edges : List Edge) (v : String) :
    (layers ids edges).lookup v =
      if v ∈ distinct ids then some ((Work.finish ids edges).layerOf v) else none := by
  rw [layers_eq_map]
  exact lookup_map_mk (Work.finish ids edges).layerOf (distinct ids) v

theorem map_fst_layers (ids : List String) (edges : List Edge) :
    (layers ids edges).map Prod.fst = distinct ids := by
  rw [layers_eq_map, List.map_map]
  exact List.map_id' _

theorem exists_sound_finish (ids : List String) (edges : List Edge) :
    ∃ taken, (Work.finish ids edges).Sound (distinct ids) (kept ids edges) taken ∧
      ∀ v ∈ ids, Grounded (kept ids edges) v → v ∈ taken := by
  have hends : ∀ e ∈ kept ids edges, e.source ∈ distinct ids ∧ e.target ∈ distinct ids := by
    intro e he
    rw [mem_distinct, mem_distinct]
    exact (mem_kept.mp he).2
  obtain ⟨taken, hsound, hdone⟩ :=
    Work.exists_sound_run (nodup_distinct ids) fun e he => (hends e he).2
  refine ⟨taken, hsound, fun v hv hgrounded => ?_⟩
  exact hsound.mem_of_grounded hdone (fun e he => (hends e he).1) (mem_distinct.mpr hv) hgrounded

theorem layerOf_finish_lt (hacyclic : Acyclic (kept ids edges)) {e : Edge}
    (he : e ∈ kept ids edges) :
    (Work.finish ids edges).layerOf e.source < (Work.finish ids edges).layerOf e.target := by
  obtain ⟨taken, hsound, htaken⟩ := exists_sound_finish ids edges
  exact hsound.above e he (htaken _ (mem_kept.mp he).2.1 (hacyclic.grounded _))

/-- Every listed node has one layer, and no other node has any. The layer of a node that lies on no
cycle and behind none is the length of the longest walk to it, so in a graph without cycles every
edge leads to a later layer. -/
theorem layers_isDepth (ids : List String) (edges : List Edge) :
    ((layers ids edges).map Prod.fst).Nodup ∧
      (∀ v, v ∈ ids ↔ ∃! n, (v, n) ∈ layers ids edges) ∧
      (∀ v n, (v, n) ∈ layers ids edges → Grounded (kept ids edges) v →
        IsDepth (kept ids edges) v n) ∧
      (Acyclic (kept ids edges) → ∀ e ∈ kept ids edges, ∀ m n,
        (e.source, m) ∈ layers ids edges → (e.target, n) ∈ layers ids edges → m < n) := by
  obtain ⟨taken, hsound, htaken⟩ := exists_sound_finish ids edges
  refine ⟨?_, fun v => ⟨fun hv => ?_, ?_⟩, fun v n hvn hgrounded => ?_,
    fun hacyclic e he m n hm hn => ?_⟩
  · rw [map_fst_layers]
    exact nodup_distinct ids
  · exact ⟨_, mem_layers.mpr ⟨hv, rfl⟩, fun n hn => (mem_layers.mp hn).2⟩
  · rintro ⟨n, hn, _⟩
    exact (mem_layers.mp hn).1
  · obtain ⟨hv, rfl⟩ := mem_layers.mp hvn
    exact hsound.isDepth (htaken v hv hgrounded)
  · obtain ⟨hsource, rfl⟩ := mem_layers.mp hm
    obtain ⟨_, rfl⟩ := mem_layers.mp hn
    exact hsound.above e he (htaken _ hsource (hacyclic.grounded _))

/-- A graph with two ways to a node, and a cycle elsewhere. -/
theorem layers_isDepth_apart :
    let ids := ["a", "b", "c", "x", "a"]
    let edges : List Edge := [⟨"a", "c"⟩, ⟨"a", "b"⟩, ⟨"b", "c"⟩, ⟨"b", "c"⟩, ⟨"x", "x"⟩, ⟨"y", "a"⟩]
    layers ids edges = [("a", 0), ("b", 1), ("c", 2), ("x", 0)] ∧
      Grounded (kept ids edges) "c" ∧ IsDepth (kept ids edges) "c" 2 := by
  intro ids edges
  have hlayers : layers ids edges = [("a", 0), ("b", 1), ("c", 2), ("x", 0)] := by decide
  have hgrounded : Grounded (kept ids edges) "c" :=
    grounded_of_rank (P := (· ≠ "x")) (r := (["a", "b", "c"].idxOf ·)) (by decide) (by decide)
  refine ⟨hlayers, hgrounded, (layers_isDepth ids edges).2.2.1 "c" 2 ?_ hgrounded⟩
  rw [hlayers]
  decide

end PromptStudio.Graph
