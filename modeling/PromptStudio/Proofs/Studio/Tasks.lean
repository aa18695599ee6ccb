import PromptStudio.Proofs.Lookup
import PromptStudio.Session.World

/-!
# What the map of executions remembers

`get?_set` reads the map after something has been remembered: only the entry of that key has
changed. The panels' namespaces lie apart (`key_space_inj`), so what one panel remembers is never
read by the other.
-/

namespace PromptStudio

namespace Tasks

variable {k k' : String}

/-- The execution remembered last for a key is found, and all others as before. -/
theorem get?_set (t : Tasks) (space space' id id' execution : String) :
    (t.set space id execution).get? space' id' =
      if key space' id' = key space id then some execution else t.get? space' id' := by
  unfold set get?
  dsimp only
  rw [lookup_cons, without, lookup_filter_bne]
  split <;> rfl

end Tasks

/-- Workflows of different panels, and different workflows of one panel, have different keys. -/
theorem World.key_space_inj {m m' : Mode} {id id' : String} :
    Tasks.key (space m) id = Tasks.key (space m') id' ↔ m = m' ∧ id = id' := by
  constructor
  · intro h
    have hlist := congrArg String.toList h
    cases m <;> cases m' <;>
      simp [Tasks.key, space, Tasks.workflowSpace, Tasks.siteSpace, String.toList_inj] at hlist
    · exact ⟨rfl, hlist⟩
    · exact ⟨rfl, hlist⟩
  · rintro ⟨rfl, rfl⟩
    rfl

end PromptStudio
