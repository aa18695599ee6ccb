import PromptStudio.Proofs.Graph.Placing

/-!
# The layer of any node

On a cycle and behind one there are no longest walks, but such nodes have layers as well: taking a
node moves the targets of its edges even if they are never taken themselves. `IsLayer` says for any
graph which layer a node has, in terms of the graph alone, and `mem_layers_iff` that these are the
layers. So layers do not depend on the order in which nodes and edges are listed (`layers_congr`),
and a node that is never taken stays on layer 0 only if no grounded node leads to it
(`stalled_layer`).
-/

namespace PromptStudio.Graph

variable {ids ids' taken : List String} {edges edges' : List Edge} {v : String} {w : Work} {n : Nat}

/-! ## Layers in terms of the graph -/

/-- A node's layer: one more than the greatest depth of the grounded nodes with an edge to it, and 0
if there is none. -/
def IsLayer (edges : List Edge) (v : String) (n : Nat) : Prop :=
  IsGreatest (insert 0 {m | ∃ e ∈ edges, ∃ k, e.target = v ∧ Grounded edges e.source ∧
    IsDepth edges e.source k ∧ m = k + 1}) n

/-- The listed nodes are given their layers, and nothing else. -/
theorem mem_layers_iff : (v, n) ∈ layers ids edges ↔ v ∈ ids ∧ IsLayer (kept ids edges) v n := by
  obtain ⟨taken, hsound, htaken⟩ := exists_sound_finish ids edges
  have hlayer : IsLayer (kept ids edges) v ((Work.finish ids edges).layerOf v) := by
    constructor
    · rcases hsound.reached v with hzero | ⟨e, he, htarget, hsource, hlayer⟩
      · exact .inl hzero
      · exact .inr ⟨e, he, _, htarget, hsound.grounded hsource, hsound.isDepth hsource, hlayer⟩
    · rintro m (rfl | ⟨e, he, k, rfl, hgrounded, hk, rfl⟩)
      · exact Nat.zero_le _
      · have hsource : e.source ∈ taken := htaken _ (mem_kept.mp he).2.1 hgrounded
        rw [hk.unique (hsound.isDepth hsource)]
        exact hsound.above e he hsource
  rw [mem_layers]
  refine and_congr_right fun _ => ⟨?_, fun h => h.unique hlayer⟩
  rintro rfl
  exact hlayer

theorem lookup_layers_eq_some :
    (layers ids edges).lookup v = some n ↔ (v, n) ∈ layers ids edges := by
  rw [lookup_layers, mem_layers]
  simp [eq_comm]

theorem nodup_layers (ids : List String) (edges : List Edge) : (layers ids edges).Nodup := by
  refine .of_map Prod.fst ?_
  rw [map_fst_layers]
  exact nodup_distinct ids

/-! ## Nodes that are never taken -/

/-- Nodes whose incoming edges are all used up lie on no cycle and behind none. -/
theorem Work.Sound.grounded_of_ready (h : Sound ids edges taken w) (hv : v ∈ taken ++ w.queue) :
    Grounded edges v := by
  have hsources := pending_eq_zero.mp ((h.ready v).mp hv).2
  exact grounded_of_sources fun e he htarget => h.grounded (hsources e he htarget)

/-- The grounded nodes are those whose incoming edges are all used up at some time. -/
theorem grounded_iff_used_up (hv : v ∈ ids) :
    Grounded (kept ids edges) v ↔ ∃ k, ((Work.start (distinct ids) (kept ids edges)).run
      (kept ids edges) k).unused.lookup v = some 0 := by
  have htargets : ∀ e ∈ kept ids edges, e.target ∈ distinct ids := by
    intro e he
    exact mem_distinct.mpr (mem_kept.mp he).2.2
  constructor
  · intro hgrounded
    obtain ⟨taken, hsound, htaken⟩ := exists_sound_finish ids edges
    have hready := (hsound.ready v).mp (List.mem_append_left _ (htaken v hv hgrounded))
    refine ⟨(distinct ids).length, (hsound.unused v).trans ?_⟩
    rw [if_pos hready.1, hready.2]
  · rintro ⟨k, hk⟩
    obtain ⟨taken, hsound, _⟩ := (Work.sound_start (nodup_distinct ids) (kept ids edges)).run
      htargets k
    rw [hsound.unused, if_pos (mem_distinct.mpr hv), Option.some.injEq] at hk
    exact hsound.grounded_of_ready ((hsound.ready v).mpr ⟨mem_distinct.mpr hv, hk⟩)

/-- The nodes on layer 0 are those to which no grounded node leads. -/
theorem layerOf_finish_eq_zero_iff : (Work.finish ids edges).layerOf v = 0 ↔
    ∀ e ∈ kept ids edges, e.target = v → ¬ Grounded (kept ids edges) e.source := by
  obtain ⟨taken, hsound, htaken⟩ := exists_sound_finish ids edges
  constructor
  · rintro hzero e he rfl hgrounded
    have habove := hsound.above e he (htaken _ (mem_kept.mp he).2.1 hgrounded)
    omega
  · intro hnone
    rcases hsound.reached v with hzero | ⟨e, he, htarget, hsource, _⟩
    · exact hzero
    · exact absurd (hsound.grounded hsource) (hnone e he htarget)

/-- The listed nodes that lie on a cycle or behind one are those whose incoming edges are never all
used up. Any listed node, these included, is one layer behind the deepest of the grounded nodes that
lead to it, so it stays on layer 0, at the left edge of the drawing, exactly if there are none. -/
theorem stalled_layer (ids : List String) (edges : List Edge) (v : String) (hv : v ∈ ids) :
    (¬ Grounded (kept ids edges) v ↔ ∀ k, ((Work.start (distinct ids) (kept ids edges)).run
      (kept ids edges) k).unused.lookup v ≠ some 0) ∧
    ∃ n, (layers ids edges).lookup v = some n ∧ IsLayer (kept ids edges) v n ∧
      ((positions (.standard : Layout Int) ids edges).lookup v).map Position.x = some (380 * n) ∧
      (n = 0 ↔ ∀ e ∈ kept ids edges, e.target = v → ¬ Grounded (kept ids edges) e.source) := by
  refine ⟨(not_congr (grounded_iff_used_up hv)).trans not_exists, ?_⟩
  have hmem : (v, (Work.finish ids edges).layerOf v) ∈ layers ids edges := mem_layers.mpr ⟨hv, rfl⟩
  have hlookup := lookup_layers_eq_some.mpr hmem
  refine ⟨_, hlookup, (mem_layers_iff.mp hmem).2, ?_, layerOf_finish_eq_zero_iff⟩
  rw [lookup_positions_x, hlookup]
  exact congrArg some (Int.mul_comm _ _)

/-- A cycle of two nodes, one of them behind a node without incoming edges. -/
def fedCycle : List Edge := [⟨"a", "b"⟩, ⟨"b", "c"⟩, ⟨"c", "b"⟩]

theorem onCycle_fedCycle :
    OnCycle (kept ["a", "b", "c"] fedCycle) "b" ∧ OnCycle (kept ["a", "b", "c"] fedCycle) "c" := by
  have hc : Walk (kept ["a", "b", "c"] fedCycle) "b" "c" 1 :=
    .on (e := ⟨"b", "c"⟩) (.here "b") (by decide)
  have hb : Walk (kept ["a", "b", "c"] fedCycle) "c" "b" 1 :=
    .on (e := ⟨"c", "b"⟩) (.here "c") (by decide)
  exact ⟨⟨1, hc.trans hb⟩, ⟨1, hb.trans hc⟩⟩

/-- A node on a cycle need not stay on layer 0. -/
theorem fedCycle_not_zero :
    OnCycle (kept ["a", "b", "c"] fedCycle) "b" ∧
      layers ["a", "b", "c"] fedCycle = [("a", 0), ("b", 1), ("c", 0)] ∧
      ((positions (.standard : Layout Int) ["a", "b", "c"] fedCycle).lookup "b").map Position.x =
        some 380 :=
  ⟨onCycle_fedCycle.1, by decide, by decide⟩

/-- The other node of the cycle stays there: only the first one leads to it. -/
theorem stalled_layer_fedCycle :
    "c" ∈ ["a", "b", "c"] ∧ ¬ Grounded (kept ["a", "b", "c"] fedCycle) "c" ∧
      (layers ["a", "b", "c"] fedCycle).lookup "c" = some 0 := by
  have hb : ¬ Grounded (kept ["a", "b", "c"] fedCycle) "b" :=
    fun h => h "b" 0 (.here "b") onCycle_fedCycle.1
  have honly : ∀ e ∈ kept ["a", "b", "c"] fedCycle, e.target = "c" → e.source = "b" := by decide
  obtain ⟨n, hlookup, _, _, hzero⟩ := (stalled_layer ["a", "b", "c"] fedCycle "c" (by decide)).2
  have hn : n = 0 := hzero.mpr fun e he htarget => honly e he htarget ▸ hb
  refine ⟨by decide, fun h => ?_, hn ▸ hlookup⟩
  exact h "c" 0 (.here "c") onCycle_fedCycle.2

/-! ## Other lists of the same nodes and edges -/

theorem walk_congr (h : ∀ e, e ∈ edges ↔ e ∈ edges') {u : String} :
    Walk edges u v n ↔ Walk edges' u v n :=
  ⟨.mono fun e => (h e).mp, .mono fun e => (h e).mpr⟩

theorem isLayer_congr (h : ∀ e, e ∈ edges ↔ e ∈ edges') :
    IsLayer edges v n ↔ IsLayer edges' v n := by
  unfold IsLayer IsDepth Grounded OnCycle
  simp only [walk_congr h, h]

/-- Layers depend only on the sets of nodes and edges, whatever the order in which these are listed
and however often each. -/
theorem layers_congr (ids ids' : List String) (edges edges' : List Edge)
    (hids : ∀ v, v ∈ ids ↔ v ∈ ids') (hedges : ∀ e, e ∈ edges ↔ e ∈ edges') :
    (∀ v, (layers ids edges).lookup v = (layers ids' edges').lookup v) ∧
      (layers ids edges).Perm (layers ids' edges') := by
  have hkept : ∀ e, e ∈ kept ids edges ↔ e ∈ kept ids' edges' := by
    intro e
    rw [mem_kept, mem_kept, hedges, hids, hids]
  have hmem : ∀ m, m ∈ layers ids edges ↔ m ∈ layers ids' edges' := by
    rintro ⟨v, n⟩
    rw [mem_layers_iff, mem_layers_iff, hids, isLayer_congr hkept]
  refine ⟨fun v => Option.ext fun n => ?_, (List.perm_ext_iff_of_nodup ?_ ?_).mpr hmem⟩
  · rw [lookup_layers_eq_some, lookup_layers_eq_some, hmem]
  · exact nodup_layers ids edges
  · exact nodup_layers ids' edges'

/-- The fed cycle with its nodes and edges listed in another order, and more than once. -/
theorem layers_congr_fedCycle :
    let ids := ["c", "a", "c", "b"]
    let edges : List Edge := [⟨"c", "b"⟩, ⟨"b", "c"⟩, ⟨"c", "b"⟩, ⟨"a", "b"⟩]
    (∀ v, v ∈ ids ↔ v ∈ ["a", "b", "c"]) ∧ (∀ e, e ∈ edges ↔ e ∈ fedCycle) ∧
      (layers ids edges).Perm [("a", 0), ("b", 1), ("c", 0)] := by
  intro ids edges
  have hids : ∀ v, v ∈ ids ↔ v ∈ ["a", "b", "c"] := by
    intro v
    simp only [ids, List.mem_cons, List.not_mem_nil, or_false]
    tauto
  have hedges : ∀ e, e ∈ edges ↔ e ∈ fedCycle := by
    intro e
    simp only [edges, fedCycle, List.mem_cons, List.not_mem_nil, or_false]
    tauto
  have hlayers : layers ["a", "b", "c"] fedCycle = [("a", 0), ("b", 1), ("c", 0)] := by decide
  exact ⟨hids, hedges, hlayers ▸ (layers_congr ids _ edges fedCycle hids hedges).2⟩

end PromptStudio.Graph
