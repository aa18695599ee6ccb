import PromptStudio.Proofs.Graph.Longest

/-!
# The work never gets stuck

Taking a node goes on where something is missing: a node that has no layer counts as one on layer 0,
a node outside the graph as one without edges, and a count stays at 0. `Work.take?` fails there. It
looks targets up in tables into which the edges have been entered one by one (`Tables.ofGraph`), and
`Work.Takes` is the loop over it. By the invariant `Work.Sound`, and because every queued node has a
layer (`Work.Layered`), it never fails (`take?_eq_some`). So it goes on until nothing is queued, and
ends where the work that goes on in any case ends (`work_never_stuck`).
-/

namespace PromptStudio.Graph

variable {ids taken queue queued ts : List String} {edges : List Edge} {id t v : String}
  {w w' : Work} {n : Nat}

/-! ## Tables -/

/-- For each node the targets of its edges, and the number of edges that enter it. -/
structure Tables where
  next : List (String × List String)
  unused : Numbering
deriving DecidableEq, Repr

namespace Tables

/-- Before any edge is entered. -/
def empty (ids : List String) : Tables :=
  { next := ids.map fun id => (id, [])
    unused := ids.map fun id => (id, 0) }

/-- Enters an edge, unless one of its ends is not in the tables. -/
def add (t : Tables) (e : Edge) : Tables :=
  match t.unused.lookup e.target, t.next.lookup e.source with
  | some n, some _ =>
    { next := t.next.map fun m => if m.1 = e.source then (m.1, m.2 ++ [e.target]) else m
      unused := t.unused.put e.target (n + 1) }
  | _, _ => t

/-- The tables of a graph. -/
def ofGraph (ids : List String) (edges : List Edge) : Tables :=
  edges.foldl add (empty (distinct ids))

/-- The tables in which these edges have been entered. -/
def filled (ids : List String) (edges : List Edge) : Tables :=
  { next := ids.map fun id => (id, targets edges id)
    unused := ids.map fun id => (id, indegree edges id) }

/-- The nodes of a list without entering edges, all of which must be in the table of counts. -/
def sources? (t : Tables) : List String → Option (List String)
  | [] => some []
  | id :: ids => do
    let n ← t.unused.lookup id
    let sources ← t.sources? ids
    return if n = 0 then id :: sources else sources

end Tables

theorem targets_concat (edges : List Edge) (e : Edge) (id : String) :
    targets (edges ++ [e]) id =
      if id = e.source then targets edges id ++ [e.target] else targets edges id := by
  unfold targets
  rw [List.filter_append, List.map_append, List.filter_singleton]
  grind

theorem indegree_concat (edges : List Edge) (e : Edge) (id : String) :
    indegree (edges ++ [e]) id =
      if id = e.target then indegree edges id + 1 else indegree edges id := by
  unfold indegree
  rw [List.filter_append, List.length_append, List.filter_singleton]
  grind

/-- A node that has a number already keeps its place. -/
theorem Numbering.put_map (hids : ids.Nodup) (ht : t ∈ ids) (f : String → Nat) (n : Nat) :
    Numbering.put t n (ids.map fun id => (id, f id)) =
      ids.map fun id => (id, if id = t then n else f id) := by
  induction hids with
  | nil => cases ht
  | @cons id ids hid _ ih =>
    rw [List.map_cons, List.map_cons, put]
    by_cases heq : id = t
    · have hrest : (ids.map fun x => (x, f x)) = ids.map fun x => (x, if x = t then n else f x) :=
        List.map_congr_left fun x hx => by rw [if_neg fun hxt => hid x hx (heq.trans hxt.symm)]
      rw [if_pos (beq_iff_eq.mpr heq), if_pos heq, hrest, heq]
    · rw [if_neg (mt beq_iff_eq.mp heq), if_neg heq, ih (List.mem_of_ne_of_mem (Ne.symm heq) ht)]

namespace Tables

theorem add_filled {e : Edge} (hids : ids.Nodup) (hsource : e.source ∈ ids)
    (htarget : e.target ∈ ids) : (filled ids edges).add e = filled ids (edges ++ [e]) := by
  unfold add filled
  dsimp only
  rw [lookup_map_mk, lookup_map_mk, if_pos hsource, if_pos htarget]
  dsimp only
  rw [Numbering.put_map hids htarget, List.map_map, Tables.mk.injEq]
  -- the source has one more target, the target one more edge
  constructor <;> refine List.map_congr_left fun id _ => ?_
  · rw [Function.comp_apply, targets_concat]
    split <;> rfl
  · rw [indegree_concat]
    grind

theorem add_filled_of_not {e : Edge} (hends : ¬ (e.source ∈ ids ∧ e.target ∈ ids)) :
    (filled ids edges).add e = filled ids edges := by
  unfold add filled
  dsimp only
  rw [lookup_map_mk, lookup_map_mk]
  grind

/-- Entering edges one by one leaves just those whose ends are nodes. -/
theorem foldl_add_filled (hids : ids.Nodup) (edges edges' : List Edge) :
    edges'.foldl add (filled ids edges) = filled ids (edges ++ kept ids edges') := by
  induction edges' generalizing edges with
  | nil => rw [kept, List.filter_nil, List.append_nil, List.foldl_nil]
  | cons e edges' ih =>
    rw [List.foldl_cons]
    by_cases hends : e.source ∈ ids ∧ e.target ∈ ids
    · have hkept : kept ids (e :: edges') = e :: kept ids edges' :=
        List.filter_cons_of_pos (by simpa using hends)
      rw [add_filled hids hends.1 hends.2, ih, hkept, List.append_assoc]
      rfl
    · have hkept : kept ids (e :: edges') = kept ids edges' :=
        List.filter_cons_of_neg (by simpa using hends)
      rw [add_filled_of_not hends, ih, hkept]

theorem ofGraph_eq_filled (ids : List String) (edges : List Edge) :
    ofGraph ids edges = filled (distinct ids) (kept ids edges) := by
  have h := foldl_add_filled (nodup_distinct ids) [] edges
  rwa [List.nil_append, kept_distinct] at h

theorem sources?_filled (hids : ∀ id ∈ queue, id ∈ ids) :
    (filled ids edges).sources? queue = some (queue.filter fun id => indegree edges id = 0) := by
  induction queue with
  | nil => rfl
  | cons id queue ih =>
    have hid : (filled ids edges).unused.lookup id = some (indegree edges id) :=
      (lookup_map_mk _ _ _).trans (if_pos (hids id List.mem_cons_self))
    rw [sources?, hid, ih fun x hx => hids x (List.mem_cons_of_mem id hx), List.filter_cons]
    simp

end Tables

/-! ## Work that can fail -/

namespace Work

/-- Before any node is taken. -/
def start? (ids : List String) (t : Tables) : Option Work := do
  let sources ← t.sources? ids
  return { queue := sources, unused := t.unused, layer := sources.map fun id => (id, 0) }

/-- Uses up an edge to `target`, which must have one left. It need not have a layer before. -/
def follow? (w : Work) (layer : Nat) (target : String) : Option Work :=
  match w.unused.lookup target with
  | some (_ + 1) => some (w.follow layer target)
  | _ => none

/-- Takes the first node of the queue, which must have a layer and stand in the table of targets. -/
def take? (next : List (String × List String)) (w : Work) : Option Work :=
  match w.queue with
  | [] => none
  | id :: queue => do
    let layer ← w.layer.lookup id
    let targets ← next.lookup id
    targets.foldlM (fun w target => w.follow? layer target) { w with queue }

/-- From `w`, taking this many nodes leads to this work, and these nodes have been queued by then,
those that `w` starts with included. -/
inductive Takes (next : List (String × List String)) (w : Work) :
    Nat → List String → Work → Prop
  | here : Takes next w 0 w.queue w
  | on {n : Nat} {queued ready queue : List String} {id : String} {w' w'' : Work}
      (h : Takes next w n queued w') (hnode : w'.queue = id :: queue)
      (htake : w'.take? next = some w'') (hready : w''.queue = queue ++ ready) :
    Takes next w (n + 1) (queued ++ ready) w''

theorem start?_filled (ids : List String) (edges : List Edge) :
    start? ids (.filled ids edges) = some (start ids edges) := by
  unfold start?
  rw [Tables.sources?_filled fun _ => id]
  rfl

theorem foldlM_follow?_eq_some (h : w.Covers ts) (l : Nat) :
    ts.foldlM (fun w t => w.follow? l t) w = some (w.follows l ts) := by
  unfold follows
  induction ts generalizing w with
  | nil => rfl
  | cons t ts ih =>
    obtain ⟨n, hn, _⟩ := h.exists_succ
    have hfollow : w.follow? l t = some (w.follow l t) := by
      unfold follow?
      rw [hn]
    rw [List.foldlM_cons, hfollow, List.foldl_cons]
    exact ih (h.follow l)

/-! ## Nothing fails -/

/-- Every queued node has a layer. -/
def Layered (w : Work) : Prop := ∀ v ∈ w.queue, (w.layer.lookup v).isSome

theorem layered_start (ids : List String) (edges : List Edge) : Layered (start ids edges) := by
  intro v hv
  unfold start at hv ⊢
  rw [lookup_map_mk fun _ => 0, if_pos hv]
  rfl

theorem isSome_layer_follows (w : Work) (l : Nat) (ts : List String) (v : String) :
    ((w.follows l ts).layer.lookup v).isSome ↔ v ∈ ts ∨ (w.layer.lookup v).isSome := by
  unfold follows
  induction ts generalizing w with
  | nil => simp
  | cons t ts ih =>
    rw [List.foldl_cons, ih, layer_follow, Numbering.lookup_put, List.mem_cons]
    grind

section Take

variable (h : Sound ids edges taken w) (hqueue : w.queue = id :: queue)
  (hedges : ∀ e ∈ edges, e.target ∈ ids)

include h hqueue hedges

theorem take?_eq_some (hlayered : w.Layered) :
    w.take? (Tables.filled ids edges).next = some (w.take edges) := by
  have hid : id ∈ ids := ((h.ready id).mp (by simp [hqueue])).1
  have hnext : (Tables.filled ids edges).next.lookup id = some (targets edges id) :=
    (lookup_map_mk _ _ _).trans (if_pos hid)
  obtain ⟨l, hl⟩ := Option.isSome_iff_exists.mp (hlayered id (by simp [hqueue]))
  have hlayer : w.layerOf id = l := by
    unfold layerOf
    rw [hl, Option.getD_some]
  rw [take_eq_follows hqueue, hlayer, ← foldlM_follow?_eq_some (h.covers hqueue hedges) l]
  unfold take?
  rw [hqueue]
  simp only [hl, hnext, Option.bind_eq_bind, Option.bind_some]

/-- Nodes that become ready have been given layers behind the node taken. -/
theorem Layered.take (hlayered : w.Layered) : (w.take edges).Layered := by
  obtain ⟨ready, hready, _, hmem⟩ := h.queue_take hqueue hedges
  intro v hv
  rw [take_eq_follows hqueue, isSome_layer_follows]
  rw [hready] at hv
  rcases List.mem_append.mp hv with hold | hnew
  · exact .inr (hlayered v (hqueue ▸ List.mem_cons_of_mem id hold))
  · obtain ⟨_, hzero, hpos⟩ := (hmem v).mp hnew
    have hcount := pending_concat edges (h.head_not_mem hqueue) v
    exact .inl (List.count_pos_iff.mp (by omega))

end Take

section Takes

variable (hids : ids.Nodup) (hedges : ∀ e ∈ edges, e.target ∈ ids)

section

variable (h : Takes (Tables.filled ids edges).next (start ids edges) n queued w)

include hids hedges h

/-- The work is where it would be if it could not fail, and the nodes queued so far are those taken
and those that still wait. -/
theorem Takes.sound : w = (start ids edges).run edges n ∧ ∃ taken, taken.length = n ∧
    queued = taken ++ w.queue ∧ Sound ids edges taken w ∧ w.Layered := by
  induction h with
  | here => exact ⟨rfl, [], rfl, rfl, sound_start hids edges, layered_start ids edges⟩
  | @on n queued ready queue id w' w'' _ hnode htake hready ih =>
    obtain ⟨hrun, taken, hlength, hqueued, hsound, hlayered⟩ := ih
    rw [take?_eq_some hsound hnode hedges hlayered] at htake
    obtain rfl := Option.some.inj htake
    refine ⟨?_, taken ++ [id], ?_, ?_, hsound.take hnode hedges, hlayered.take hsound hnode hedges⟩
    · rw [run_succ, ← hrun]
    · rw [List.length_append, List.length_singleton, hlength]
    · rw [hqueued, hnode, hready, List.append_assoc, List.append_assoc]
      rfl

theorem Takes.nodup : queued.Nodup := by
  obtain ⟨_, taken, _, rfl, hsound, _⟩ := h.sound hids hedges
  exact hsound.nodup

theorem Takes.add_length_le : n + w.queue.length ≤ ids.length := by
  obtain ⟨_, taken, rfl, _, hsound, _⟩ := h.sound hids hedges
  exact hsound.length_add_length_le

/-- As long as a node is queued, it can be taken. -/
theorem Takes.exists_on (hqueue : w.queue ≠ []) : ∃ ready w',
    Takes (Tables.filled ids edges).next (start ids edges) (n + 1) (queued ++ ready) w' := by
  obtain ⟨_, taken, _, _, hsound, hlayered⟩ := h.sound hids hedges
  obtain ⟨id, queue, hnode⟩ := List.exists_cons_of_ne_nil hqueue
  obtain ⟨ready, hready, _⟩ := hsound.queue_take hnode hedges
  exact ⟨ready, _, .on h hnode (take?_eq_some hsound hnode hedges hlayered) hready⟩

end

include hids hedges

/-- Wherever the work gets if it cannot fail, it gets if it can. -/
theorem exists_takes_run (k : Nat) : ∃ n queued,
    Takes (Tables.filled ids edges).next (start ids edges) n queued ((start ids edges).run edges k) ∧
      (((start ids edges).run edges k).queue = [] ∨ n = k) := by
  induction k with
  | zero => exact ⟨0, _, .here, .inr rfl⟩
  | succ k ih =>
    obtain ⟨n, queued, h, hend⟩ := ih
    -- once nothing is queued the run stands still
    by_cases hqueue : ((start ids edges).run edges k).queue = []
    · rw [run_succ, take_of_queue hqueue]
      exact ⟨n, queued, h, .inl hqueue⟩
    · obtain rfl := hend.resolve_left hqueue
      obtain ⟨ready, w, h'⟩ := h.exists_on hids hedges hqueue
      exact ⟨n + 1, queued ++ ready, (h'.sound hids hedges).1 ▸ h', .inr rfl⟩

theorem exists_takes_end : ∃ n queued,
    Takes (Tables.filled ids edges).next (start ids edges) n queued
      ((start ids edges).run edges ids.length) ∧
      ((start ids edges).run edges ids.length).queue = [] := by
  obtain ⟨n, queued, h, hend⟩ := exists_takes_run hids hedges ids.length
  refine ⟨n, queued, h, hend.elim id fun hn => ?_⟩
  have hle := h.add_length_le hids hedges
  exact List.length_eq_zero_iff.mp (by omega)

end Takes

end Work

/-- The work never meets a node that is not in its tables, a queued node without a layer or an edge
that is used up already: whatever the nodes and edges, it can take the next node as long as one is
queued, and is then where it would be if it could not fail. No node is queued twice, so it ends
after at most as many nodes as there are, and then it has the layers of the graph. -/
theorem work_never_stuck (ids : List String) (edges : List Edge) :
    let next := (Tables.ofGraph ids edges).next
    let start := Work.start (distinct ids) (kept ids edges)
    Work.start? (distinct ids) (.ofGraph ids edges) = some start ∧
      (∀ n queued w, start.Takes next n queued w →
        w = start.run (kept ids edges) n ∧ n ≤ (distinct ids).length ∧ queued.Nodup ∧
          (w.queue ≠ [] → ∃ ready w', start.Takes next (n + 1) (queued ++ ready) w')) ∧
      ∃ n queued w, start.Takes next n queued w ∧ w.queue = [] ∧
        layers ids edges = (distinct ids).map fun id => (id, (w.layer.lookup id).getD 0) := by
  intro next start
  have hnext : next = (Tables.filled (distinct ids) (kept ids edges)).next :=
    congrArg Tables.next (Tables.ofGraph_eq_filled ids edges)
  have hids := nodup_distinct ids
  have hedges : ∀ e ∈ kept ids edges, e.target ∈ distinct ids :=
    fun e he => mem_distinct.mpr (mem_kept.mp he).2.2
  rw [hnext, Tables.ofGraph_eq_filled]
  refine ⟨Work.start?_filled _ _, fun n queued w h => ⟨?_, ?_, ?_, ?_⟩, ?_⟩
  · exact (h.sound hids hedges).1
  · exact Nat.le_of_add_right_le (h.add_length_le hids hedges)
  · exact h.nodup hids hedges
  · exact h.exists_on hids hedges
  · obtain ⟨n, queued, h, hend⟩ := Work.exists_takes_end hids hedges
    exact ⟨n, queued, Work.finish ids edges, h, hend, layers_eq_map ids edges⟩

/-- A node queued twice would use its edges up twice, and fails the second time. -/
example :
    let next := (Tables.ofGraph ["a", "b"] [⟨"a", "b"⟩]).next
    let w : Work := { queue := ["a", "a"], unused := [("a", 0), ("b", 1)], layer := [("a", 0)] }
    (w.take? next).isSome ∧ (w.take? next).bind (·.take? next) = none := by
  decide

end PromptStudio.Graph
