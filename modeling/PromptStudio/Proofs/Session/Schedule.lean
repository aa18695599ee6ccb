import PromptStudio.Proofs.Steps
import PromptStudio.Session.Schedule

/-!
# Running schedules

A schedule is run action by action, so what every action preserves holds at its end
(`run_induction`), and a schedule may be cut anywhere (`run_append`). `observed` collects what is
seen of one kind of action in the course of a schedule.
-/

namespace PromptStudio.System

variable {s : System} {n : Nat} {op : Operation} {a : Arrival} {as : List Action} {x : Action}

/-- Nothing has been issued yet. -/
def new (settings : Settings) (studio : Studio) (tasks : Tasks) : System :=
  { world := { settings, studio, tasks } }

@[simp] theorem run_cons (s : System) (x : Action) (as : List Action) :
    s.run (x :: as) = (s.act x).run as := rfl

theorem run_append (s : System) (as bs : List Action) :
    s.run (as ++ bs) = (s.run as).run bs := by
  unfold run
  rw [List.foldl_append]

theorem run_concat (s : System) (as : List Action) (x : Action) :
    s.run (as ++ [x]) = (s.run as).act x := run_append s as [x]

/-- What every action of a schedule preserves holds after the schedule. -/
theorem run_induction {P : System → Prop}
    (hact : ∀ s, ∀ x ∈ as, P s → P (s.act x)) (h : P s) : P (s.run as) := by
  induction as generalizing s with
  | nil => exact h
  | cons x as ih =>
    have hfirst : P (s.act x) := hact s x List.mem_cons_self h
    exact ih (fun s y hy => hact s y (List.mem_cons_of_mem x hy)) hfirst

theorem act_arrive (h : s.operations[n]? = some op) :
    s.act (.arrive n a) =
      { world := (op.receive s.world a).1
        operations := s.operations.set n (op.receive s.world a).2 } := by
  unfold act
  dsimp only
  rw [h]

theorem act_arrive_none (h : s.operations[n]? = none) : s.act (.arrive n a) = s := by
  unfold act
  dsimp only
  rw [h]

/-! ## The operations -/

theorem operations_issue {r : World × Operation} (h : (s.issue r).operations[n]? = some op) :
    s.operations[n]? = some op ∨ n = s.operations.length ∧ r.2 = op := by
  unfold issue at h
  rcases Nat.lt_trichotomy n s.operations.length with hlt | rfl | hgt
  · rw [List.getElem?_append_left hlt] at h
    exact .inl h
  · rw [List.getElem?_append_right (Nat.le_refl _), Nat.sub_self] at h
    exact .inr ⟨rfl, Option.some.inj h⟩
  · have hlen : (s.operations ++ [r.2]).length ≤ n := by simpa using Nat.succ_le_of_lt hgt
    rw [List.getElem?_eq_none hlen] at h
    cases h

theorem getElem?_issue (s : System) (r : World × Operation) :
    (s.issue r).operations[s.operations.length]? = some r.2 := by
  simp [issue]

/-- The operation that an action issues. -/
def issued? (s : System) : Action → Option Operation
  | .send mode workflowId text => some (s.world.send mode workflowId text).2
  | .resume mode workflowId => some (s.world.resume mode workflowId).2
  | .load workflowId => some (s.world.loadHistory workflowId).2
  | .abort _ | .arrive .. => none

/-- An operation was there before, has just been issued, or has made a step. -/
theorem operations_act (h : (s.act x).operations[n]? = some op) :
    s.operations[n]? = some op ∨ (n = s.operations.length ∧ s.issued? x = some op) ∨
      ∃ a op', x = .arrive n a ∧ s.operations[n]? = some op' ∧
        (op'.receive s.world a).2 = op := by
  have hissue : ∀ {r : World × Operation}, (s.issue r).operations[n]? = some op →
      s.issued? x = some r.2 →
      s.operations[n]? = some op ∨ n = s.operations.length ∧ s.issued? x = some op := by
    intro r h hx
    rcases operations_issue h with h | ⟨hn, rfl⟩
    · exact .inl h
    · exact .inr ⟨hn, hx⟩
  cases x with
  | send _ _ _ | resume _ _ | load _ => exact (hissue h rfl).imp_right .inl
  | abort _ => exact .inl h
  | arrive k a =>
    cases hop : s.operations[k]? with
    | none =>
      rw [act_arrive_none hop] at h
      exact .inl h
    | some op' =>
      rw [act_arrive hop] at h
      by_cases hk : k = n
      · subst hk
        have hlt := (List.getElem?_eq_some_iff.mp hop).1
        rw [List.getElem?_set_self hlt] at h
        exact .inr (.inr ⟨a, op', rfl, hop, Option.some.inj h⟩)
      · rw [List.getElem?_set_ne hk] at h
        exact .inl h

/-! ## What is observed -/

/-- What can be observed of the actions of a schedule, in order. -/
def observed {α : Type} (look : System → Action → Option α) (s : System) (as : List Action) :
    List α :=
  Steps.observed act look s as

theorem observed_concat {α : Type} (look : System → Action → Option α) (s : System)
    (as : List Action) (x : Action) :
    s.observed look (as ++ [x]) = s.observed look as ++ (look (s.run as) x).toList :=
  Steps.observed_concat act look s as x

end PromptStudio.System
