import Mathlib.Data.Fintype.Card
import Mathlib.Data.Set.Finite.List
import PromptStudio.Graph.Layering

/-!
# Walks in a graph

A walk follows edges. A node is `Grounded` if it lies on no cycle and behind none. Walks to a
grounded node pass no node twice, so they are paths, and among finitely many nodes every way back
from one comes to an end: `Grounded.induction` goes from the sources of all edges into a node to the
node.
-/

namespace PromptStudio.Graph

variable {edges : List Edge} {ids : List String} {u v w : String} {m n : Nat}

/-- There is a walk of this many edges from one node to another. -/
inductive Walk (edges : List Edge) : String → String → Nat → Prop
  | here (v : String) : Walk edges v v 0
  | on {u : String} {n : Nat} {e : Edge} (h : Walk edges u e.source n) (he : e ∈ edges) :
    Walk edges u e.target (n + 1)

/-- The node lies on a cycle. -/
def OnCycle (edges : List Edge) (v : String) : Prop := ∃ n, Walk edges v v (n + 1)

/-- The node lies on no cycle and cannot be reached from one. -/
def Grounded (edges : List Edge) (v : String) : Prop :=
  ∀ u n, Walk edges u v n → ¬ OnCycle edges u

/-- There is no cycle. -/
def Acyclic (edges : List Edge) : Prop := ∀ v, ¬ OnCycle edges v

/-- The number of edges of the longest walk that ends at a node. -/
def IsDepth (edges : List Edge) (v : String) (n : Nat) : Prop :=
  IsGreatest {k | ∃ u, Walk edges u v k} n

theorem Acyclic.grounded (h : Acyclic edges) (v : String) : Grounded edges v :=
  fun u _ _ => h u

theorem Walk.trans (h : Walk edges u v m) (h' : Walk edges v w n) : Walk edges u w (m + n) := by
  induction h' with
  | here => exact h
  | on _ he ih => exact .on ih he

theorem Grounded.source {e : Edge} (h : Grounded edges e.target) (he : e ∈ edges) :
    Grounded edges e.source :=
  fun u n hwalk => h u (n + 1) (.on hwalk he)

theorem grounded_of_sources (h : ∀ e ∈ edges, e.target = v → Grounded edges e.source) :
    Grounded edges v := by
  rintro u n hwalk ⟨k, hcycle⟩
  cases hwalk with
  | here =>
    cases hcycle with
    | on hback he => exact h _ he rfl _ k hback ⟨k, .on hback he⟩
  | on hfront he => exact h _ he rfl u _ hfront ⟨k, hcycle⟩

theorem Walk.mono {edges' : List Edge} (hedges : ∀ e ∈ edges, e ∈ edges')
    (h : Walk edges u v n) : Walk edges' u v n := by
  induction h with
  | here => exact .here _
  | on _ he ih => exact .on ih (hedges _ he)

section Rank

variable {P : String → Prop} {r : String → Nat}
  (hrank : ∀ e ∈ edges, P e.target → P e.source ∧ r e.source < r e.target)

include hrank

/-- Where edges lead to higher ranks, a walk is no longer than the rank it leads to. -/
theorem Walk.rank_le (h : Walk edges u v n) (hv : P v) : P u ∧ r u + n ≤ r v := by
  induction h with
  | here => exact ⟨hv, Nat.le_refl _⟩
  | @on n e _ he ih =>
    obtain ⟨hsource, hlt⟩ := hrank e he hv
    obtain ⟨hu, hle⟩ := ih hsource
    exact ⟨hu, Nat.lt_of_le_of_lt hle hlt⟩

theorem grounded_of_rank (hv : P v) : Grounded edges v := by
  rintro u n hwalk ⟨k, hcycle⟩
  have hu : P u := (hwalk.rank_le hrank hv).1
  have hle := (hcycle.rank_le hrank hu).2
  omega

end Rank

/-- Going back along walks from one listed grounded node to another comes to an end. -/
theorem Grounded.wellFounded (edges : List Edge) (ids : List String) :
    WellFounded fun u v : {v // v ∈ ids ∧ Grounded edges v} =>
      ∃ n, Walk edges u.1 v.1 (n + 1) := by
  have hfinite : Finite {v // v ∈ ids ∧ Grounded edges v} :=
    ((List.finite_toSet ids).subset fun _ h => h.1).to_subtype
  have htrans : IsTrans {v // v ∈ ids ∧ Grounded edges v} fun u v =>
      ∃ n, Walk edges u.1 v.1 (n + 1) :=
    ⟨fun _ _ _ ⟨m, h⟩ ⟨n, h'⟩ => ⟨m + 1 + n, h.trans h'⟩⟩
  have hirrefl : Std.Irrefl fun u v : {v // v ∈ ids ∧ Grounded edges v} =>
      ∃ n, Walk edges u.1 v.1 (n + 1) :=
    ⟨fun v hcycle => v.2.2 v.1 0 (.here _) hcycle⟩
  exact Finite.wellFounded_of_trans_of_irrefl _

/-- What holds of a node whenever it holds of the sources of all edges into it holds of every
grounded node. -/
theorem Grounded.induction {P : String → Prop} (hids : ∀ e ∈ edges, e.source ∈ ids)
    (hstep : ∀ v ∈ ids, (∀ e ∈ edges, e.target = v → P e.source) → P v) (hv : v ∈ ids)
    (h : Grounded edges v) : P v := by
  suffices hall : ∀ x : {v // v ∈ ids ∧ Grounded edges v}, P x.1 from hall ⟨v, hv, h⟩
  intro x
  induction x using (Grounded.wellFounded edges ids).induction with
  | h x ih =>
    refine hstep x.1 x.2.1 fun e he htarget => ?_
    have hsource : Grounded edges e.source := Grounded.source (htarget ▸ x.2.2) he
    exact ih ⟨e.source, hids e he, hsource⟩ ⟨0, htarget ▸ .on (.here e.source) he⟩

end PromptStudio.Graph
