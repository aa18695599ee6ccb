import PromptStudio.Proofs.Session.Moves

/-!
# Who holds a panel

An operation holds a panel from when it takes it over until it finishes, unless another one has
taken the panel over by then, or the panel has been stopped. `move_tokens` says what a move does to
the tokens of a panel, and the tokens are in order in every state of every run (`tokened_run`). So
nobody else comes to hold a panel than who takes it over (`heldBy_move`), and at most one operation
holds it (`HeldBy.unique`).
-/

namespace PromptStudio.Contention

variable {c : Contention} {x : Move} {moves : List Move} {n k : Nat} {op : Operation} {a : Arrival}
  {part : Section} {mode : Mode} {t : Token}

/-! ## Tokens -/

/-- An operation takes the panel over: a prompt is sent, or an execution is to be followed again. -/
inductive TakesOver (c : Contention) (mode : Mode) : Move → Prop
  | sent {workflowId text} : TakesOver c mode (.act (.send mode workflowId text))
  | resumed {n op executionId x} (hw : c.waiting n = none)
      (hop : c.system.operations[n]? = some op) (hm : op.mode = mode)
      (hs : op.stage = .lookingUp executionId) (hx : x.status.isResumable = true) :
      TakesOver c mode (.act (.arrive n (.execution (.ok x))))

/-- A move hands out no token of the panel, or lets an operation take the panel over, which then
holds the token handed out, or stops the panel. -/
theorem move_tokens (c : Contention) (mode : Mode) (x : Move) :
    ((c.move x).system.world.control mode = c.system.world.control mode ∧
        ∀ n t, (c.move x).system.Holds mode n t → c.system.Holds mode n t) ∨
      (c.TakesOver mode x ∧
        (c.move x).system.world.control mode = (c.system.world.control mode).renew.1 ∧
        ∃ k, c.actor? x = some k ∧ ∀ n t, (c.move x).system.Holds mode n t →
          c.system.Holds mode n t ∨
            n = k ∧ t = (c.system.world.control mode).cancelled.length) ∨
      x = .act (.abort mode) := by
  have hmade := made c x
  generalize c.move x = c' at hmade
  cases hmade with
  | idle => exact .inl ⟨rfl, fun _ _ h => h⟩
  | @sent m workflowId text =>
    by_cases hm : m = mode
    · subst hm
      refine .inr (.inl ⟨.sent, ?_, c.system.operations.length, rfl, fun n t hn => ?_⟩)
      · exact (World.control_claim _ m m workflowId text).trans (if_pos rfl)
      · rcases System.holds_issue hn with hn | ⟨hnk, _, ht⟩
        · exact .inl hn
        · exact .inr ⟨hnk, (Option.some.inj ht).symm⟩
    · refine .inl ⟨?_, fun n t hn => System.holds_issue_of_none hn fun e => absurd e hm⟩
      exact (World.control_claim _ m mode workflowId text).trans (if_neg fun e => hm e.symm)
  | resumed =>
    refine .inl ⟨?_, fun n t hn => System.holds_issue_of_none hn fun _ => ?_⟩
    · exact congrArg (World.control · mode) (Operation.fst_resume _ _ _)
    · exact Operation.token?_resume _ _ _
  | loaded => exact .inl ⟨rfl, fun n t hn => System.holds_issue_of_none hn fun _ => rfl⟩
  | @stopped m =>
    by_cases hm : m = mode
    · exact .inr (.inr (hm ▸ rfl))
    · refine .inl ⟨?_, fun _ _ h => h⟩
      exact (World.control_stop _ _ _).trans (if_neg fun e => hm e.symm)
  | @reached n op a hw hop =>
    have hheld : ∀ {k t}, (c.put n (op.reach c.system.world a)).system.Holds mode k t →
        c.system.Holds mode k t ∨
          k = n ∧ op.mode = mode ∧ (op.reach c.system.world a).1.2.token? = some t := by
      intro k t hk
      rw [holds_put hop, Operation.mode_reach] at hk
      split at hk
      · rename_i hkn
        exact .inr ⟨hkn, hk⟩
      · exact .inl hk
    rcases Operation.control_reach c.system.world op a with ⟨hc, hkeep⟩ | ⟨hc, ht, _, _, hs, ha, hx⟩
    · refine .inl ⟨hc mode, fun k t hk => ?_⟩
      rcases hheld hk with hk | ⟨rfl, hm, hk⟩
      · exact hk
      · exact ⟨op, hop, hm, hkeep t hk⟩
    · by_cases hm : op.mode = mode
      · subst hm
        subst ha
        refine .inr (.inl ⟨.resumed hw hop rfl hs hx, ?_, n, rfl, fun k t hk => ?_⟩)
        · exact (congrArg (World.control · op.mode) hc).trans
            ((World.control_takeOver _ _ _).trans (if_pos rfl))
        · rcases hheld hk with hk | ⟨hkn, _, hk⟩
          · exact .inl hk
          · exact .inr ⟨hkn, Option.some.inj (hk.symm.trans ht)⟩
      · refine .inl ⟨?_, fun k t hk => ?_⟩
        · exact (congrArg (World.control · mode) hc).trans
            ((World.control_takeOver _ _ _).trans (if_neg fun e => hm e.symm))
        · rcases hheld hk with hk | ⟨_, hm', _⟩
          · exact hk
          · exact absurd hm' hm
  | @entered n op part hw hop =>
    refine .inl ⟨Operation.control_enter _ _ _ _, fun k t hk => ?_⟩
    rw [holds_put hop, Operation.mode_enter] at hk
    split at hk
    · rename_i hkn
      exact hkn ▸ ⟨op, hop, hk.1, Operation.token?_enter hk.2⟩
    · exact hk
  | cleared => exact .inl ⟨World.control_clear _ _ _, fun _ _ h => h⟩

theorem not_live_act_abort (h : (c.system.world.control mode).Sound) :
    ¬ ((c.move (.act (.abort mode))).system.world.control mode).Live t := by
  have hc : (c.move (.act (.abort mode))).system.world.control mode =
      (c.system.world.control mode).abort.1 := (World.control_stop _ _ _).trans (if_pos rfl)
  rw [hc]
  exact Control.not_live_abort h

theorem tokened_move (h : c.system.Tokened mode) (x : Move) : (c.move x).system.Tokened mode := by
  rcases move_tokens c mode x with ⟨hc, hh⟩ | ⟨_, hc, k, _, hh⟩ | rfl
  · exact h.keep hc hh
  · exact h.renew hc hh
  · refine ⟨fun t ht => absurd ht (not_live_act_abort h.sound), fun n t ht => ?_,
      fun n k t => h.held_unique n k t⟩
    show t < ((c.system.world.stop mode).control mode).cancelled.length
    rw [World.control_stop, if_pos rfl, Control.length_abort]
    exact h.held_lt n t ht

theorem tokened_of_run (h : c.system.Tokened mode) (moves : List Move) :
    (c.run moves).system.Tokened mode :=
  run_induction (P := fun c => c.system.Tokened mode) (fun _ x _ h => tokened_move h x) h

/-- The tokens are in order in every state of every run. -/
theorem tokened_run (settings : Settings) (studio : Studio) (tasks : Tasks) (mode : Mode)
    (moves : List Move) : ((new settings studio tasks).run moves).system.Tokened mode :=
  tokened_of_run (System.tokened_new settings studio tasks mode) moves

/-! ## Holding a panel -/

/-- The operation `n` holds the panel. -/
def HeldBy (c : Contention) (mode : Mode) (n : Nat) : Prop :=
  ∃ t, c.system.Holds mode n t ∧ (c.system.world.control mode).Live t

theorem HeldBy.unique (h : c.system.Tokened mode) (hn : c.HeldBy mode n) (hk : c.HeldBy mode k) :
    n = k := by
  obtain ⟨t, ht, htlive⟩ := hn
  obtain ⟨u, hu, hulive⟩ := hk
  obtain rfl := h.sound.unique htlive hulive
  exact h.held_unique n k t ht hu

theorem HeldBy.not_superseded (h : c.HeldBy mode n) (hop : c.system.operations[n]? = some op) :
    op.mode = mode ∧ op.isSuperseded c.system.world = false := by
  obtain ⟨t, ⟨op', hop', hm, ht⟩, hlive⟩ := h
  obtain rfl := Option.some.inj (hop'.symm.trans hop)
  subst hm
  unfold Operation.isSuperseded
  rw [ht]
  exact ⟨rfl, hlive.not_cancelled⟩

/-- An operation that holds a token and has not been superseded holds the panel. -/
theorem heldBy_of_not_superseded (h : c.system.Tokened op.mode)
    (hop : c.system.operations[n]? = some op) (ht : op.token? = some t)
    (hs : op.isSuperseded c.system.world = false) : c.HeldBy op.mode n := by
  unfold Operation.isSuperseded at hs
  rw [ht] at hs
  have hheld : c.system.Holds op.mode n t := ⟨op, hop, rfl, ht⟩
  exact ⟨t, hheld, Control.live_of_not_cancelled (h.held_lt n t hheld) hs⟩

/-- Whoever waits for the lock and has not been superseded holds the panel. -/
theorem heldBy_of_waiting (h : c.system.Tokened op.mode) (hfits : c.Fitting)
    (hw : c.waiting n = some part) (hop : c.system.operations[n]? = some op)
    (hpart : ∀ entries, part ≠ .load entries) (hs : op.isSuperseded c.system.world = false) :
    c.HeldBy op.mode n := by
  obtain ⟨t, ht⟩ := Operation.token?_of_fits (hfits.fits hw hop) hpart
  exact heldBy_of_not_superseded h hop ht hs

theorem TakesOver.control (h : c.TakesOver mode x) :
    (c.move x).system.world.control mode = (c.system.world.control mode).renew.1 := by
  cases h with
  | @sent workflowId text =>
    exact (World.control_claim _ mode mode workflowId text).trans (if_pos rfl)
  | resumed hw hop hm hs hx =>
    rw [act_arrive hw hop, world_put]
    unfold Operation.reach
    rw [hs]
    simp [hx, hm]

/-- Whoever takes the panel over holds it, and waits for the lock to record its prompt or to mark
the panel. -/
theorem TakesOver.heldBy (h : c.TakesOver mode x) (ht : c.system.Tokened mode) :
    ∃ n, c.actor? x = some n ∧ (c.move x).HeldBy mode n ∧
      ((c.move x).waiting n = some .mark ∨ ∃ text, (c.move x).waiting n = some (.record text)) := by
  have hlive : ((c.move x).system.world.control mode).Live
      (c.system.world.control mode).cancelled.length := by
    rw [h.control]
    exact (Control.live_renew ht.sound).mpr rfl
  cases h with
  | @sent workflowId text =>
    refine ⟨_, rfl, ⟨_, ⟨_, System.getElem?_issue c.system _, rfl, rfl⟩, hlive⟩, .inr ⟨text, ?_⟩⟩
    exact if_pos rfl
  | @resumed n op executionId x hw hop hm hs hx =>
    subst hm
    have hreach : op.reach c.system.world (.execution (.ok x)) =
        (((c.system.world.takeOver op.mode).1,
          { op with stage := .opening (c.system.world.takeOver op.mode).2 x.graphId executionId }),
          some .mark) := by
      unfold Operation.reach
      simp [hs, hx]
    refine ⟨n, rfl, ⟨_, ?_, hlive⟩, .inl ?_⟩
    · rw [act_arrive hw hop, holds_put hop, if_pos rfl, hreach]
      exact ⟨rfl, rfl⟩
    · rw [act_arrive hw hop, waiting_put, if_pos rfl, hreach]

/-- Whoever holds the panel after a move has held it before, or has just taken it over. -/
theorem heldBy_move (h : c.system.Tokened mode) (hn : (c.move x).HeldBy mode n) :
    ¬ c.TakesOver mode x ∧ c.HeldBy mode n ∨ c.TakesOver mode x ∧ c.actor? x = some n := by
  obtain ⟨t, hheld, hlive⟩ := hn
  by_cases hx : c.TakesOver mode x
  · have hnew : ¬ c.system.Holds mode n t := fun hold => by
      rw [hx.control, Control.live_renew h.sound] at hlive
      exact Nat.ne_of_lt (h.held_lt n t hold) hlive
    rcases move_tokens c mode x with ⟨_, hh⟩ | ⟨_, _, k, hk, hh⟩ | rfl
    · exact absurd (hh n t hheld) hnew
    · obtain ⟨rfl, _⟩ := (hh n t hheld).resolve_left hnew
      exact .inr ⟨hx, hk⟩
    · cases hx
  · rcases move_tokens c mode x with ⟨hc, hh⟩ | ⟨htaken, _⟩ | rfl
    · exact .inl ⟨hx, t, hh n t hheld, hc ▸ hlive⟩
    · exact absurd htaken hx
    · exact absurd hlive (not_live_act_abort h.sound)

/-- Whoever holds the panel holds it until another one takes it over, the panel is stopped, or the
operation gets the lock after a refusal or at the end of its stream. -/
theorem HeldBy.move (h : c.HeldBy mode n) (hfits : c.Fitting) (hx : ¬ c.TakesOver mode x)
    (hstop : x ≠ .act (.abort mode)) :
    (c.move x).HeldBy mode n ∨
      ∃ op part, x = .enter n ∧ c.waiting n = some part ∧ c.system.operations[n]? = some op ∧
        op.mode = mode ∧ op.isSuperseded c.system.world = false ∧
        ((∃ e, part = .refuse e) ∨ ∃ o, part = .settle o) := by
  have hheld := h
  obtain ⟨t, ⟨op, hop, rfl, ht⟩, hlive⟩ := h
  have hcontrol : (c.move x).system.world.control op.mode = c.system.world.control op.mode := by
    rcases move_tokens c op.mode x with ⟨hc, _⟩ | ⟨htaken, _⟩ | hstopped
    · exact hc
    · exact absurd htaken hx
    · exact absurd hstopped hstop
  have hkept : ∀ {op' : Operation}, (c.move x).system.operations[n]? = some op' →
      op'.mode = op.mode → op'.token? = some t → (c.move x).HeldBy op.mode n :=
    fun hop' hm ht' => ⟨t, ⟨_, hop', hm, ht'⟩, hcontrol ▸ hlive⟩
  rcases operations_move_of_some x hop with hop' | ⟨a, rfl, hop'⟩ | ⟨part, rfl, hw, hop'⟩
  · exact .inl (hkept hop' rfl ht)
  · exact .inl (hkept hop' (Operation.mode_reach _ _ _)
      (Operation.token?_reach ht hlive.not_cancelled a))
  · cases part with
    | record text | mark | apply f => exact .inl (hkept hop' rfl ht)
    | refuse e =>
      exact .inr ⟨op, _, rfl, hw, hop, rfl, (hheld.not_superseded hop).2, .inl ⟨e, rfl⟩⟩
    | settle o =>
      exact .inr ⟨op, _, rfl, hw, hop, rfl, (hheld.not_superseded hop).2, .inr ⟨o, rfl⟩⟩
    | load entries =>
      obtain ⟨_, hs⟩ := (hfits.fits hw hop).of_load
      unfold Operation.token? at ht
      rw [hs] at ht
      cases ht

theorem HeldBy.enter (h : c.HeldBy mode n) (hfits : c.Fitting) (hw : c.waiting n = some part)
    (hrefuse : ∀ e, part ≠ .refuse e) (hsettle : ∀ o, part ≠ .settle o) :
    (c.move (.enter n)).HeldBy mode n := by
  rcases h.move hfits (x := .enter n) (fun hx => by cases hx) (fun hx => by cases hx) with
    hkept | ⟨op, part', _, hw', _, _, _, hend⟩
  · exact hkept
  · obtain rfl := Option.some.inj (hw.symm.trans hw')
    rcases hend with ⟨e, he⟩ | ⟨o, ho⟩
    · exact absurd he (hrefuse e)
    · exact absurd ho (hsettle o)

/-- Nobody takes a panel over while having the lock. -/
theorem heldBy_enter (h : c.system.Tokened mode) (hn : (c.move (.enter k)).HeldBy mode n) :
    c.HeldBy mode n := by
  rcases heldBy_move h hn with ⟨_, hn⟩ | ⟨hx, _⟩
  · exact hn
  · cases hx

end PromptStudio.Contention
