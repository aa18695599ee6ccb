import Mathlib.Data.List.Perm.Subperm
import PromptStudio.Proofs.Graph.Taking

/-!
# The invariant of the work

`Work.Sound` says where the work stands when certain nodes have been taken: the counts are those of
the edges from all other nodes (`pending`), the nodes without such edges are those taken or queued,
and layers come from the edges of the nodes taken. `Sound.take` keeps it. No node is taken twice, so
after as many steps as there are nodes nothing is queued (`exists_sound_run`).
-/

namespace PromptStudio.Graph

variable {ids taken queue : List String} {edges : List Edge} {id v : String} {w : Work}

/-! ## Edges from nodes not yet taken -/

/-- The number of edges into a node whose sources have not been taken. -/
def pending (edges : List Edge) (taken : List String) (v : String) : Nat :=
  edges.countP fun e => e.target = v ∧ e.source ∉ taken

theorem pending_nil (edges : List Edge) (v : String) : pending edges [] v = indegree edges v := by
  simp [pending, indegree, List.countP_eq_length_filter, beq_eq_decide]

theorem pending_eq_zero :
    pending edges taken v = 0 ↔ ∀ e ∈ edges, e.target = v → e.source ∈ taken := by
  simp [pending, List.countP_eq_zero]

/-- The edges of the node taken no longer count. -/
theorem pending_concat (edges : List Edge) (hid : id ∉ taken) (v : String) :
    pending edges taken v = pending edges (taken ++ [id]) v + (targets edges id).count v := by
  induction edges with
  | nil => rfl
  | cons e edges ih =>
    unfold pending targets at *
    rw [List.countP_cons, List.countP_cons, List.filter_cons]
    grind

namespace Work

/-! ## Where the work stands -/

/-- A node not on layer 0 is one layer behind a node taken. -/
def Reached (edges : List Edge) (taken : List String) (w : Work) (v : String) : Prop :=
  w.layerOf v = 0 ∨
    ∃ e ∈ edges, e.target = v ∧ e.source ∈ taken ∧ w.layerOf v = w.layerOf e.source + 1

/-- These nodes have been taken, in this order. -/
structure Sound (ids : List String) (edges : List Edge) (taken : List String) (w : Work) :
    Prop where
  nodup : (taken ++ w.queue).Nodup
  ready : ∀ v, v ∈ taken ++ w.queue ↔ v ∈ ids ∧ pending edges taken v = 0
  unused : ∀ v, w.unused.lookup v = if v ∈ ids then some (pending edges taken v) else none
  above : ∀ e ∈ edges, e.source ∈ taken → w.layerOf e.source < w.layerOf e.target
  reached : ∀ v, Reached edges taken w v

theorem sound_start (hids : ids.Nodup) (edges : List Edge) :
    Sound ids edges [] (start ids edges) where
  nodup := hids.filter _
  ready v := by
    rw [pending_nil]
    simp [start]
  unused v := by
    rw [pending_nil]
    exact lookup_map_mk (indegree edges) ids v
  above _ _ h := absurd h List.not_mem_nil
  reached v := by
    left
    unfold layerOf start
    dsimp only
    rw [lookup_map_mk fun _ => 0]
    split <;> rfl

/-- A node that has been taken or queued is entered by no edge of a node taken later. -/
theorem Sound.not_mem_targets (h : Sound ids edges taken w) (hv : v ∈ taken ++ w.queue)
    (hid : id ∉ taken) : v ∉ targets edges id := by
  intro ht
  have hcount := pending_concat edges hid v
  have hzero := ((h.ready v).mp hv).2
  have hpos := List.count_pos_iff.mpr ht
  omega

/-- No more nodes have been taken or queued than there are. -/
theorem Sound.length_add_length_le (h : Sound ids edges taken w) :
    taken.length + w.queue.length ≤ ids.length := by
  rw [← List.length_append]
  exact (List.Nodup.subperm h.nodup fun v hv => ((h.ready v).mp hv).1).length_le

section Take

variable (h : Sound ids edges taken w) (hqueue : w.queue = id :: queue)

include h hqueue

theorem Sound.head_not_mem : id ∉ taken := by
  intro hid
  have hnodup := h.nodup
  rw [hqueue] at hnodup
  exact (List.nodup_append.mp hnodup).2.2 id hid id List.mem_cons_self rfl

/-- Layers of nodes that have been taken do not change any more. -/
theorem Sound.layerOf_take_of_mem (hv : v ∈ taken ++ [id]) :
    (w.take edges).layerOf v = w.layerOf v := by
  have hmem : v ∈ taken ++ w.queue := by
    rw [hqueue]
    simp only [List.mem_append, List.mem_cons, List.not_mem_nil, or_false] at hv ⊢
    exact hv.imp_right .inl
  rw [take_eq_follows hqueue, layerOf_follows,
    if_neg (h.not_mem_targets hmem (h.head_not_mem hqueue))]
  rfl

/-- Every edge of the node to be taken is unused. -/
theorem Sound.covers (hedges : ∀ e ∈ edges, e.target ∈ ids) :
    ({ w with queue } : Work).Covers (targets edges id) := by
  intro v hv
  obtain ⟨e, he, _, rfl⟩ := mem_targets.mp hv
  refine ⟨pending edges taken e.target, (h.unused _).trans (if_pos (hedges e he)), ?_⟩
  rw [pending_concat edges (h.head_not_mem hqueue)]
  exact Nat.le_add_left _ _

/-- The nodes that become ready are those whose last edges come from the node taken. -/
theorem Sound.queue_take (hedges : ∀ e ∈ edges, e.target ∈ ids) :
    ∃ ready : List String, (w.take edges).queue = queue ++ ready ∧ ready.Nodup ∧
      ∀ v, v ∈ ready ↔
        v ∈ ids ∧ pending edges (taken ++ [id]) v = 0 ∧ pending edges taken v ≠ 0 := by
  have hpending := pending_concat edges (h.head_not_mem hqueue)
  have hids : ∀ v ∈ targets edges id, v ∈ ids := by
    intro v hv
    obtain ⟨e, he, _, rfl⟩ := mem_targets.mp hv
    exact hedges e he
  rw [take_eq_follows hqueue]
  obtain ⟨ready, hready, hnodup, hmem⟩ :=
    queue_follows { w with queue } (w.layerOf id) (targets edges id) (h.covers hqueue hedges)
  refine ⟨ready, hready, hnodup, fun v => ?_⟩
  have hlookup := h.unused v
  have hcount := hpending v
  have hpos : v ∈ targets edges id ↔ 0 < (targets edges id).count v := List.count_pos_iff.symm
  have hlisted := hids v
  rw [hmem]
  grind

theorem Sound.above_take {e : Edge} (he : e ∈ edges) (hsource : e.source ∈ taken ++ [id]) :
    (w.take edges).layerOf e.source < (w.take edges).layerOf e.target := by
  rw [h.layerOf_take_of_mem hqueue hsource, take_eq_follows hqueue, layerOf_follows]
  rcases List.mem_append.mp hsource with hold | hnew
  · have habove : w.layerOf e.source < w.layerOf e.target := h.above e he hold
    split
    · exact Nat.lt_of_lt_of_le habove (Nat.le_max_left _ _)
    · exact habove
  · obtain hid : e.source = id := List.mem_singleton.mp hnew
    rw [if_pos (mem_targets.mpr ⟨e, he, hid, rfl⟩), hid]
    exact Nat.lt_of_lt_of_le (Nat.lt_succ_self _) (Nat.le_max_right _ _)

theorem Sound.reached_take (v : String) : Reached edges (taken ++ [id]) (w.take edges) v := by
  have hsame : (w.take edges).layerOf v = w.layerOf v →
      Reached edges (taken ++ [id]) (w.take edges) v := by
    intro hlayer
    unfold Reached
    rw [hlayer]
    refine (h.reached v).imp_right fun ⟨e, he, htarget, hsource, hreached⟩ => ?_
    have hmem : e.source ∈ taken ++ [id] := List.mem_append_left _ hsource
    exact ⟨e, he, htarget, hmem, by rw [hreached, h.layerOf_take_of_mem hqueue hmem]⟩
  have hlayer := layerOf_follows { w with queue } (w.layerOf id) (targets edges id) v
  rw [← take_eq_follows hqueue] at hlayer
  by_cases hv : v ∈ targets edges id
  · rw [if_pos hv] at hlayer
    rcases Nat.le_total (w.layerOf id + 1) (w.layerOf v) with hle | hle
    · exact hsame (hlayer.trans (Nat.max_eq_left hle))
    · obtain ⟨e, he, hid, htarget⟩ := mem_targets.mp hv
      have hmem : e.source ∈ taken ++ [id] := hid ▸ List.mem_concat_self
      refine .inr ⟨e, he, htarget, hmem, ?_⟩
      rw [h.layerOf_take_of_mem hqueue hmem, hid]
      exact hlayer.trans (Nat.max_eq_right hle)
  · rw [if_neg hv] at hlayer
    exact hsame hlayer

/-- Taking the first node of the queue. -/
theorem Sound.take (hedges : ∀ e ∈ edges, e.target ∈ ids) :
    Sound ids edges (taken ++ [id]) (w.take edges) := by
  have hpending := pending_concat edges (h.head_not_mem hqueue)
  obtain ⟨ready, hready, hnodup, hmem⟩ := h.queue_take hqueue hedges
  have hsplit : (taken ++ [id]) ++ (w.take edges).queue = (taken ++ w.queue) ++ ready := by
    rw [hready, hqueue]
    simp
  refine ⟨?_, fun v => ?_, fun v => ?_, fun e => h.above_take hqueue, h.reached_take hqueue⟩
  · rw [hsplit]
    refine List.nodup_append.mpr ⟨h.nodup, hnodup, fun x hx y hy hxy => ?_⟩
    exact ((hmem y).mp hy).2.2 (hxy ▸ ((h.ready x).mp hx).2)
  · have hcount := hpending v
    rw [hsplit, List.mem_append, h.ready, hmem]
    grind
  · have hunused := unused_follows { w with queue } (w.layerOf id) (targets edges id) v
    rw [take_eq_follows hqueue, hunused, h.unused, hpending]
    split
    · exact congrArg some (Nat.add_sub_cancel _ _)
    · rfl

end Take

/-! ## Runs -/

theorem take_of_queue (h : w.queue = []) : w.take edges = w := by
  unfold take
  rw [h]

theorem run_succ (edges : List Edge) (w : Work) (n : Nat) :
    w.run edges (n + 1) = (w.run edges n).take edges := by
  induction n generalizing w with
  | zero => rfl
  | succ n ih => rw [run, ih, ← run]

theorem run_of_queue (h : w.queue = []) (n : Nat) : w.run edges n = w := by
  induction n with
  | zero => rfl
  | succ n ih => rw [run, take_of_queue h, ih]

/-- Each step takes one more node, until none is queued. -/
theorem Sound.run (h : Sound ids edges taken w) (hedges : ∀ e ∈ edges, e.target ∈ ids) (n : Nat) :
    ∃ taken', Sound ids edges taken' (w.run edges n) ∧
      ((w.run edges n).queue = [] ∨ taken'.length = taken.length + n) := by
  induction n generalizing w taken with
  | zero => exact ⟨taken, h, .inr rfl⟩
  | succ n ih =>
    cases hqueue : w.queue with
    | nil =>
      rw [run_of_queue hqueue]
      exact ⟨taken, h, .inl hqueue⟩
    | cons id queue =>
      obtain ⟨taken', hsound, hend⟩ := ih (h.take hqueue hedges)
      refine ⟨taken', hsound, hend.imp_right fun hlength => ?_⟩
      rw [hlength, List.length_append, List.length_singleton, Nat.add_assoc, Nat.add_comm 1 n]

/-- As many steps as there are nodes leave nothing queued. -/
theorem exists_sound_run (hids : ids.Nodup) (hedges : ∀ e ∈ edges, e.target ∈ ids) :
    ∃ taken, Sound ids edges taken ((start ids edges).run edges ids.length) ∧
      ((start ids edges).run edges ids.length).queue = [] := by
  obtain ⟨taken, hsound, hend⟩ := (sound_start hids edges).run hedges ids.length
  refine ⟨taken, hsound, hend.elim id fun hlength => ?_⟩
  have hle := hsound.length_add_length_le
  rw [hlength, List.length_nil] at hle
  exact List.length_eq_zero_iff.mp (by omega)

end Work

end PromptStudio.Graph
