import PromptStudio.Proofs.Session.Schedule
import PromptStudio.Proofs.Session.Step

/-!
# Operations that have been issued

Operations are numbered in the order in which they are issued, and keep their number
(`operations_act_of_some`).
-/

namespace PromptStudio.System

variable {s : System} {n : Nat} {op : Operation}

theorem length_le_act (s : System) (x : Action) :
    s.operations.length ≤ (s.act x).operations.length := by
  cases x with
  | send _ _ _ | resume _ _ | load _ => simp [act, issue]
  | abort _ => exact Nat.le_refl _
  | arrive n a =>
    cases hop : s.operations[n]? with
    | none => exact Nat.le_of_eq (by rw [act_arrive_none hop])
    | some op => simp [act_arrive hop]

theorem length_le_run (s : System) (as : List Action) :
    s.operations.length ≤ (s.run as).operations.length :=
  run_induction (P := fun s' => s.operations.length ≤ s'.operations.length)
    (fun s' x _ hs => Nat.le_trans hs (length_le_act s' x)) (Nat.le_refl _)

/-- An operation keeps its number, and changes only by its own steps. -/
theorem operations_act_of_some (x : Action) (hop : s.operations[n]? = some op) :
    (s.act x).operations[n]? = some op ∨
      ∃ a, x = .arrive n a ∧ (s.act x).operations[n]? = some (op.receive s.world a).2 := by
  have hlt := (List.getElem?_eq_some_iff.mp hop).1
  have hget := List.getElem?_eq_getElem (Nat.lt_of_lt_of_le hlt (length_le_act s x))
  rcases operations_act hget with h | ⟨hn, _⟩ | ⟨a, op', hx, hop', hr⟩
  · exact .inl (hget.trans (h.symm.trans hop))
  · exact absurd hn (Nat.ne_of_lt hlt)
  · obtain rfl := Option.some.inj (hop'.symm.trans hop)
    exact .inr ⟨a, hx, hget.trans (congrArg some hr.symm)⟩

end PromptStudio.System
