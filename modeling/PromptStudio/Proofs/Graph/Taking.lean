import Mathlib.Data.List.Basic
import Mathlib.Data.List.Count
import Mathlib.Data.List.Nodup
import PromptStudio.Graph.Layering
import PromptStudio.Proofs.Lookup

/-!
# What taking a node does

Taking a node follows its edges one by one. For each node, `layerOf_follows` and `unused_follows`
say what all of them together do to its layer and to its count of unused edges, whatever their
order, and `queue_follows` says which nodes become ready.
-/

namespace PromptStudio.Graph

variable {ids : List String} {edges : List Edge} {id t v : String} {w : Work} {n : Nat}

/-! ## Lists of nodes and edges -/

theorem mem_distinctFrom {seen : List String} :
    v ∈ distinctFrom seen ids ↔ v ∈ ids ∧ v ∉ seen := by
  induction ids generalizing seen with
  | nil => simp [distinctFrom]
  | cons id ids ih =>
    rw [distinctFrom]
    split
    next hseen =>
      rw [ih, List.mem_cons]
      grind
    next hseen =>
      rw [List.mem_cons, ih, List.mem_cons]
      grind

@[simp] theorem mem_distinct : v ∈ distinct ids ↔ v ∈ ids := by
  unfold distinct
  rw [mem_distinctFrom]
  simp

theorem nodup_distinctFrom (seen ids : List String) : (distinctFrom seen ids).Nodup := by
  induction ids generalizing seen with
  | nil => exact .nil
  | cons id ids ih =>
    rw [distinctFrom]
    split
    · exact ih seen
    · refine List.nodup_cons.mpr ⟨fun hmem => ?_, ih _⟩
      exact (mem_distinctFrom.mp hmem).2 List.mem_cons_self

theorem nodup_distinct (ids : List String) : (distinct ids).Nodup := nodup_distinctFrom [] ids

theorem distinctFrom_eq_eraseDups (seen ids : List String) :
    distinctFrom seen ids = (ids.filter (· ∉ seen)).eraseDups := by
  induction ids generalizing seen with
  | nil => rfl
  | cons id ids ih =>
    rw [distinctFrom, ih, ih]
    split
    next hseen => rw [List.filter_cons_of_neg (by simpa using hseen)]
    next hseen =>
      rw [List.filter_cons_of_pos (by simpa using hseen), List.eraseDups_cons, List.filter_filter]
      simp [beq_eq_decide]

/-- Each id stands at its first place. -/
theorem distinct_eq_eraseDups (ids : List String) : distinct ids = ids.eraseDups := by
  unfold distinct
  rw [distinctFrom_eq_eraseDups]
  simp

theorem distinct_append (xs ys : List String) :
    distinct (xs ++ ys) = distinct xs ++ distinct (ys.filter (· ∉ xs)) := by
  simp only [distinct_eq_eraseDups, List.eraseDups_append, List.removeAll]
  simp

theorem distinct_of_nodup (h : ids.Nodup) : distinct ids = ids := by
  rw [distinct_eq_eraseDups]
  induction h with
  | nil => rfl
  | @cons id ids hid _ ih =>
    have hkeep : ids.filter (fun x => !x == id) = ids :=
      List.filter_eq_self.mpr fun x hx => by simpa using (hid x hx).symm
    rw [List.eraseDups_cons, hkeep, ih]

@[simp] theorem mem_kept {e : Edge} :
    e ∈ kept ids edges ↔ e ∈ edges ∧ e.source ∈ ids ∧ e.target ∈ ids := by
  simp [kept]

theorem kept_distinct (ids : List String) (edges : List Edge) :
    kept (distinct ids) edges = kept ids edges := by
  unfold kept
  refine List.filter_congr fun e _ => ?_
  simp

@[simp] theorem mem_targets : t ∈ targets edges id ↔ ∃ e ∈ edges, e.source = id ∧ e.target = t := by
  simp [targets, and_assoc]

/-! ## Numberings -/

theorem Numbering.lookup_put (ms : Numbering) (id : String) (n : Nat) (v : String) :
    (Numbering.put id n ms).lookup v = if v = id then some n else ms.lookup v := by
  induction ms with
  | nil => exact lookup_cons (id, n) [] v
  | cons m ms ih =>
    rw [Numbering.put]
    split
    next hm =>
      obtain rfl : m.1 = id := beq_iff_eq.mp hm
      rw [lookup_cons, lookup_cons]
      split <;> rfl
    next hm =>
      rw [lookup_cons, lookup_cons, ih]
      grind

namespace Work

/-! ## One edge -/

/-- The layer of a node, as far as it is known. -/
def layerOf (w : Work) (v : String) : Nat := (w.layer.lookup v).getD 0

theorem layer_follow (w : Work) (l : Nat) (t : String) :
    (w.follow l t).layer = w.layer.put t (max (w.layerOf t) (l + 1)) := by
  unfold follow
  dsimp only
  split <;> rfl

theorem layerOf_follow (w : Work) (l : Nat) (t v : String) :
    (w.follow l t).layerOf v = if v = t then max (w.layerOf v) (l + 1) else w.layerOf v := by
  have hlookup := Numbering.lookup_put w.layer t (max (w.layerOf t) (l + 1)) v
  rw [← layer_follow] at hlookup
  unfold layerOf at hlookup ⊢
  rw [hlookup]
  split
  next hv => rw [hv, Option.getD_some]
  next => rfl

theorem unused_follow (w : Work) (l : Nat) (t v : String) :
    (w.follow l t).unused.lookup v =
      if v = t then (w.unused.lookup v).map (· - 1) else w.unused.lookup v := by
  unfold follow
  dsimp only
  cases ht : w.unused.lookup t with
  | none => grind
  | some n =>
    rw [Numbering.lookup_put]
    grind

theorem queue_follow (w : Work) (l : Nat) (h : w.unused.lookup t = some n) :
    (w.follow l t).queue = if n - 1 = 0 then w.queue ++ [t] else w.queue := by
  unfold follow
  dsimp only
  rw [h]

/-! ## All edges of a node -/

/-- The work after edges from a node on layer `l` to these targets have been used up. -/
def follows (w : Work) (l : Nat) (ts : List String) : Work :=
  ts.foldl (fun w t => w.follow l t) w

theorem take_eq_follows {queue : List String} (h : w.queue = id :: queue) :
    w.take edges = ({ w with queue } : Work).follows (w.layerOf id) (targets edges id) := by
  unfold take
  rw [h]
  rfl

theorem layerOf_follows (w : Work) (l : Nat) (ts : List String) (v : String) :
    (w.follows l ts).layerOf v = if v ∈ ts then max (w.layerOf v) (l + 1) else w.layerOf v := by
  unfold follows
  induction ts generalizing w with
  | nil => rfl
  | cons t ts ih =>
    rw [List.foldl_cons, ih, layerOf_follow]
    grind

theorem unused_follows (w : Work) (l : Nat) (ts : List String) (v : String) :
    (w.follows l ts).unused.lookup v = (w.unused.lookup v).map (· - ts.count v) := by
  unfold follows
  induction ts generalizing w with
  | nil => simp
  | cons t ts ih =>
    rw [List.foldl_cons, ih, unused_follow, List.count_cons]
    by_cases hv : v = t
    · simp [hv, Function.comp_def, Nat.sub_sub, Nat.add_comm]
    · simp [hv, Ne.symm hv]

/-- Each of these targets has as many unused edges as it is listed. -/
def Covers (w : Work) (ts : List String) : Prop :=
  ∀ t ∈ ts, ∃ n, w.unused.lookup t = some n ∧ ts.count t ≤ n

theorem Covers.exists_succ {ts : List String} (h : w.Covers (t :: ts)) :
    ∃ n, w.unused.lookup t = some (n + 1) ∧ ts.count t ≤ n := by
  obtain ⟨n, hn, hle⟩ := h t List.mem_cons_self
  rw [List.count_cons_self] at hle
  obtain ⟨k, rfl⟩ := Nat.exists_eq_add_of_le' (Nat.le_of_add_left_le hle)
  exact ⟨k, hn, Nat.le_of_succ_le_succ hle⟩

/-- After an edge to the first target, one of its unused edges is gone and it is listed once
less. -/
theorem Covers.follow {ts : List String} (h : w.Covers (t :: ts)) (l : Nat) :
    (w.follow l t).Covers ts := by
  intro x hx
  obtain ⟨n, hn, hle⟩ := h x (List.mem_cons_of_mem t hx)
  rw [unused_follow, hn]
  by_cases hxt : x = t
  · rw [hxt, List.count_cons_self] at hle
    exact ⟨n - 1, if_pos hxt, hxt ▸ Nat.le_sub_one_of_lt hle⟩
  · rw [List.count_cons_of_ne (Ne.symm hxt)] at hle
    exact ⟨n, if_neg hxt, hle⟩

/-- Provided that no edge is used up twice, exactly those nodes become ready whose last edges are
used up, each once. -/
theorem queue_follows (w : Work) (l : Nat) (ts : List String) (h : w.Covers ts) :
    ∃ ready : List String, (w.follows l ts).queue = w.queue ++ ready ∧ ready.Nodup ∧
      ∀ t, t ∈ ready ↔ t ∈ ts ∧ w.unused.lookup t = some (ts.count t) := by
  unfold follows
  induction ts generalizing w with
  | nil => exact ⟨[], (List.append_nil _).symm, .nil, by simp⟩
  | cons t ts ih =>
    have hcount : ∀ x, (t :: ts).count x = ts.count x + if x = t then 1 else 0 := by
      intro x
      rw [List.count_cons]
      grind
    have hunused := unused_follow w l t
    obtain ⟨n, hn, hle⟩ := h.exists_succ
    obtain ⟨ready, hqueue, hnodup, hready⟩ := ih (w.follow l t) (h.follow l)
    have hpos : t ∈ ts ↔ 0 < ts.count t := List.count_pos_iff.symm
    rw [List.foldl_cons, hqueue, queue_follow w l hn, Nat.add_sub_cancel]
    -- the target itself is ready if this was the last edge into it, and then comes no more
    by_cases hlast : n = 0
    · refine ⟨t :: ready, ?_, List.nodup_cons.mpr ⟨?_, hnodup⟩, fun x => ?_⟩
      · rw [if_pos hlast, List.append_assoc]
        rfl
      · rw [hready, hunused, if_pos rfl, hn]
        grind
      · rw [List.mem_cons, hready, hunused, hcount]
        grind
    · refine ⟨ready, ?_, hnodup, fun x => ?_⟩
      · rw [if_neg hlast]
      · rw [hready, hunused, hcount]
        grind

end Work

end PromptStudio.Graph
