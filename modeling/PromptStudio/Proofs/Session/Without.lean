import PromptStudio.Proofs.Session.Issue

/-!
# Leaving an operation out of a schedule

Operations reach each other only through the world that they share. So an operation whose steps
leave the world as it is can be left out of a schedule, together with all that arrives for it: the
schedule without it ends in the same world, with the same other operations (`run_without`).
-/

namespace PromptStudio

/-- The action as it is without the operation `n`: what arrives for that operation is left out, and
each operation issued after it has the number before its own. -/
def Action.without? (n : Nat) : Action → Option Action
  | .arrive k a => if k = n then none else some (.arrive (if n < k then k - 1 else k) a)
  | x => some x

theorem Action.without?_arrive (n k : Nat) (a : Arrival) :
    (Action.arrive k a).without? n =
      if k = n then none else some (.arrive (if n < k then k - 1 else k) a) := rfl

namespace System

variable {s : System} {n : Nat} {as : List Action} {x y : Action} {a : Arrival}

/-- The system without the operation `n`. -/
def without (s : System) (n : Nat) : System := { s with operations := s.operations.eraseIdx n }

/-- The operation `n` makes no step in the course of a schedule that changes the world. -/
def LeavesWorld (s : System) (n : Nat) (as : List Action) : Prop :=
  ∀ before a after, as = before ++ .arrive n a :: after →
    ((s.run before).act (.arrive n a)).world = (s.run before).world

theorem LeavesWorld.of_concat (h : s.LeavesWorld n (as ++ [x])) : s.LeavesWorld n as := by
  intro before a after hsplit
  exact h before a (after ++ [x]) (by simp [hsplit])

theorem without_issue (hn : n < s.operations.length) (r : World × Operation) :
    (s.issue r).without n = (s.without n).issue r := by
  unfold without issue
  dsimp only
  rw [List.eraseIdx_append_of_lt_length hn]

/-- An operation just issued is the last one. -/
theorem without_issue_self (s : System) (r : World × Operation) :
    (s.issue r).without s.operations.length = { s with world := r.1 } := by
  unfold without issue
  dsimp only
  rw [List.eraseIdx_append_of_length_le (Nat.le_refl _), Nat.sub_self]
  simp

/-- A step of the operation itself is not seen without it. -/
theorem without_act_self (h : (s.act (.arrive n a)).world = s.world) :
    (s.act (.arrive n a)).without n = s.without n := by
  cases hop : s.operations[n]? with
  | none => rw [act_arrive_none hop]
  | some op =>
    unfold without
    rw [h, act_arrive hop]
    dsimp only
    rw [List.eraseIdx_set_eq]

/-- A step of another operation is the same without it. -/
theorem without_act_other {k : Nat} (hk : k ≠ n) (a : Arrival) :
    (s.act (.arrive k a)).without n =
      (s.without n).act (.arrive (if n < k then k - 1 else k) a) := by
  have hget : (s.without n).operations[if n < k then k - 1 else k]? = s.operations[k]? := by
    show (s.operations.eraseIdx n)[if n < k then k - 1 else k]? = s.operations[k]?
    by_cases hlt : n < k
    · rw [if_pos hlt, List.getElem?_eraseIdx_of_ge (by omega), Nat.sub_add_cancel (by omega)]
    · rw [if_neg hlt, List.getElem?_eraseIdx_of_lt (by omega)]
  cases hop : s.operations[k]? with
  | none => rw [act_arrive_none hop, act_arrive_none (hget.trans hop)]
  | some op =>
    rw [act_arrive hop, act_arrive (hget.trans hop)]
    unfold without
    dsimp only
    by_cases hlt : n < k
    · rw [if_pos hlt, List.eraseIdx_set_lt hlt]
    · have hgt : k < n := by omega
      rw [if_neg hlt, List.eraseIdx_set_gt hgt]

theorem without_act (hn : n < s.operations.length) (hx : x.without? n = some y) :
    (s.act x).without n = (s.without n).act y := by
  cases x with
  | send _ _ _ | resume _ _ | load _ =>
    obtain rfl := Option.some.inj hx
    exact without_issue hn _
  | abort mode =>
    obtain rfl := Option.some.inj hx
    rfl
  | arrive k a =>
    rw [Action.without?_arrive] at hx
    by_cases hk : k = n
    · rw [if_pos hk] at hx
      cases hx
    · rw [if_neg hk] at hx
      obtain rfl := Option.some.inj hx
      exact without_act_other hk a

/-- Just what arrives for the operation is left out. -/
theorem without?_eq_none (hx : x.without? n = none) : ∃ a, x = .arrive n a := by
  cases x with
  | send _ _ _ | resume _ _ | load _ | abort _ => cases hx
  | arrive k a =>
    rw [Action.without?_arrive] at hx
    by_cases hk : k = n
    · exact ⟨a, by rw [hk]⟩
    · rw [if_neg hk] at hx
      cases hx

/-- An operation that leaves the world as it is makes no difference to the others. -/
theorem run_without (hn : n < s.operations.length) (h : s.LeavesWorld n as) :
    (s.run as).without n = (s.without n).run (as.filterMap (Action.without? n)) := by
  induction as using List.reverseRecOn with
  | nil => rfl
  | append_singleton as x ih =>
    have hlast : n < (s.run as).operations.length := Nat.lt_of_lt_of_le hn (length_le_run s as)
    rw [run_concat, List.filterMap_append, run_append, ← ih h.of_concat]
    cases hx : x.without? n with
    | none =>
      obtain ⟨a, rfl⟩ := without?_eq_none hx
      rw [List.filterMap_cons_none hx]
      exact without_act_self (h as a [] rfl)
    | some y =>
      rw [List.filterMap_cons_some hx]
      exact without_act hlast hx

end System

end PromptStudio
