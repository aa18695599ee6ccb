import PromptStudio.Proofs.Session.Holders

/-!
# What is shown

All that an operation does to its panel it does with the lock: `isStreaming_enter` and
`active_enter` say what becomes of the busy flag and of the active turn, for each thing that the
lock is held for. So a panel becomes busy only when an operation records its prompt, marks its
panel, or applies a frame while it holds the panel (`busy_move`).
-/

namespace PromptStudio

namespace Operation

variable {w : World} {op : Operation} {part : Section} {m : Mode}

/-- Whoever has the lock leaves the other panel alone. -/
theorem enter_other (h : m ≠ op.mode) :
    (op.enter w part).1.1.studio.panel m = w.studio.panel m ∧
      (op.enter w part).1.1.studio.isStreaming m = w.studio.isStreaming m := by
  have hentered := enter_cases w op part
  generalize op.enter w part = r at hentered
  cases hentered with
  | recorded | marked | refused | loaded | applied | settled => simp [h]
  | dropped | noticed | misplaced => exact ⟨rfl, rfl⟩

theorem isStreaming_enter (w : World) (hfits : part.Fits op.stage) :
    (op.enter w part).1.1.studio.isStreaming op.mode =
      match part with
      | .record _ | .mark => true
      | .refuse _ => false
      | .load _ => w.studio.isStreaming op.mode
      | .apply f =>
        if op.isSuperseded w then w.studio.isStreaming op.mode
        else f.isStart op.mode ||
          (World.endOf? op.mode f).isNone && w.studio.isStreaming op.mode
      | .settle _ => if op.isSuperseded w then w.studio.isStreaming op.mode else false := by
  have hentered := enter_cases w op part
  generalize op.enter w part = r at hentered
  cases hentered with
  | recorded | marked | refused | loaded => simp
  | dropped hs | noticed _ hs => simp [hs]
  | applied hs | settled _ hs => simp [hs]
  | misplaced hf => exact absurd hfits hf

theorem active_enter (w : World) (hfits : part.Fits op.stage) :
    ((op.enter w part).1.1.studio.panel op.mode).active =
      match part with
      | .record _ | .load _ => none
      | .mark | .refuse _ => (w.studio.panel op.mode).active
      | .apply f =>
        if op.isSuperseded w then (w.studio.panel op.mode).active
        else ((w.studio.panel op.mode).hear op.mode f).active
      | .settle o =>
        if op.isSuperseded w = false ∧ o.isInterrupted = true then none
        else (w.studio.panel op.mode).active := by
  have hentered := enter_cases w op part
  generalize op.enter w part = r at hentered
  cases hentered with
  | recorded | marked | refused | loaded => simp [Panel.load]
  | dropped hs | noticed _ hs => simp [hs]
  | applied hs => simp [hs]
  | @settled o _ _ _ _ hs => cases ho : o.isInterrupted <;> simp [hs, ho, Panel.detach]
  | misplaced hf => exact absurd hfits hf

end Operation

namespace Contention

variable {c : Contention} {x : Move} {mode : Mode}

/-- A panel becomes busy only by an operation of its own that has the lock: it records its prompt,
marks the panel, or applies a frame, and then it has not been superseded. -/
theorem busy_move (hfits : c.Fitting) (hidle : c.system.world.studio.isStreaming mode = false)
    (hbusy : (c.move x).system.world.studio.isStreaming mode = true) :
    ∃ n op part, x = .enter n ∧ c.waiting n = some part ∧ c.system.operations[n]? = some op ∧
      op.mode = mode ∧
      ((∃ text, part = .record text) ∨ part = .mark ∨
        ∃ f, part = .apply f ∧ op.isSuperseded c.system.world = false) := by
  have hsame : ∀ {c' : Contention}, c'.system.world.studio.isStreaming mode = true →
      c'.system.world.studio.isStreaming mode = c.system.world.studio.isStreaming mode → False := by
    intro c' hbusy hsame
    rw [hsame, hidle] at hbusy
    cases hbusy
  cases x with
  | act y => exact (hsame hbusy (by rw [studio_act])).elim
  | clear m =>
    have hmade := made c (.clear m)
    generalize c.move (.clear m) = c' at hmade hbusy
    cases hmade with
    | idle => exact (hsame hbusy rfl).elim
    | cleared =>
      have hclear : (c.system.world.clear m).studio.isStreaming mode = true := hbusy
      rw [World.isStreaming_clear, hidle, ite_self] at hclear
      cases hclear
  | enter n =>
    cases hw : c.waiting n with
    | none => exact (hsame hbusy (by rw [move_enter_of_none hw])).elim
    | some part =>
      obtain ⟨op, hop, hfit⟩ := hfits n part hw
      rw [move_enter hw hop, world_put] at hbusy
      by_cases hm : op.mode = mode
      · subst hm
        refine ⟨n, op, part, rfl, hw, hop, rfl, ?_⟩
        rw [Operation.isStreaming_enter _ hfit] at hbusy
        cases part with
        | record text => exact .inl ⟨text, rfl⟩
        | mark => exact .inr (.inl rfl)
        | refuse e => cases hbusy
        | load entries => exact absurd hbusy (by simp [hidle])
        | apply f =>
          refine .inr (.inr ⟨f, rfl, Bool.eq_false_iff.mpr fun hs => ?_⟩)
          simp [hs, hidle] at hbusy
        | settle o => exact absurd hbusy (by simp [hidle])
      · rw [(Operation.enter_other fun e => hm e.symm).2, hidle] at hbusy
        cases hbusy

end Contention

end PromptStudio
