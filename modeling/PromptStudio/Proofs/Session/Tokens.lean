import PromptStudio.Proofs.Session.Issue
import PromptStudio.Proofs.Stream.Control

/-!
# Who holds which token

`Tokened` ties the tokens of a panel to its operations: at most the token held by the panel's
control is live, every token of an operation has been handed out, and no two operations hold the
same one. `tokened_run` says that it holds in every state of every schedule.
-/

namespace PromptStudio

/-! ## What a step does to tokens -/

namespace Operation

variable {w : World} {op : Operation} {a : Arrival} {m : Mode} {t : Token}

@[simp] theorem token?_finish (op : Operation) (r : Except Failure (Option StreamRun)) :
    (op.finish r).token? = none := rfl

@[simp] theorem token?_finishWith (op : Operation) (graphId executionId : String) (o : Outcome) :
    (op.finishWith graphId executionId o).token? = none := rfl

theorem token?_of_following {graphId executionId : String}
    (hs : op.stage = .following t graphId executionId) : op.token? = some t := by
  unfold token?
  rw [hs]

/-- A step leaves the other panel alone. -/
theorem receive_other (h : m ≠ op.mode) :
    (op.receive w a).1.control m = w.control m ∧
      (op.receive w a).1.studio.panel m = w.studio.panel m ∧
      (op.receive w a).1.studio.isStreaming m = w.studio.isStreaming m := by
  have hstep := step_receive w op a
  generalize op.receive w a = r at hstep
  cases hstep with
  | ignored | dismissed | opened | unloaded | noticed => exact ⟨rfl, rfl, rfl⟩
  | ticketed => cases m <;> exact ⟨rfl, rfl, rfl⟩
  | refused | resumed | loaded | heard | ended | lost => simp [h]

/-- A step hands out a token only to follow an execution again, and then to the operation that
makes it. -/
theorem control_receive (w : World) (op : Operation) (a : Arrival) :
    ((op.receive w a).1.control op.mode = w.control op.mode ∧
        ∀ t, (op.receive w a).2.token? = some t → op.token? = some t) ∨
      ((op.receive w a).1.control op.mode = (w.control op.mode).renew.1 ∧
        (op.receive w a).2.token? = some (w.control op.mode).cancelled.length ∧
        ∃ executionId x, op.stage = .lookingUp executionId ∧ a = .execution (.ok x) ∧
          x.status.isResumable = true) := by
  have hstep := step_receive w op a
  generalize op.receive w a = r at hstep
  cases hstep with
  | ignored => exact .inl ⟨rfl, fun _ h => h⟩
  | ticketed hs ha =>
    refine .inl ⟨by cases op.mode <;> rfl, fun t h => ?_⟩
    unfold token? at h ⊢
    rw [hs]
    exact h
  | resumed hs ha hx => exact .inr ⟨by simp, rfl, _, _, hs, ha, hx⟩
  | opened hs ha =>
    refine .inl ⟨rfl, fun t h => ?_⟩
    unfold token? at h ⊢
    rw [hs]
    exact h
  | heard => exact .inl ⟨by simp, fun _ h => h⟩
  | refused | dismissed | loaded | unloaded | noticed | ended | lost =>
    exact .inl ⟨by simp, fun _ h => by simp at h⟩

end Operation

theorem World.not_live_of_cancelled {w : World} {mode : Mode} {t : Token}
    (h : w.isCancelled mode t = true) : ¬ (w.control mode).Live t := by
  intro hlive
  have hnot : w.isCancelled mode t = false := hlive.not_cancelled
  rw [h] at hnot
  cases hnot

namespace System

variable {s : System} {mode m : Mode} {n k : Nat} {t : Token} {op : Operation}

/-- The operation of number `n` works in the panel and holds the token. -/
def Holds (s : System) (mode : Mode) (n : Nat) (t : Token) : Prop :=
  ∃ op, s.operations[n]? = some op ∧ op.mode = mode ∧ op.token? = some t

/-- An operation holds the panel: it has taken the panel over, and it has not been superseded,
stopped or finished since. -/
def Owned (s : System) (mode : Mode) : Prop :=
  ∃ n t, s.Holds mode n t ∧ (s.world.control mode).Live t

/-- The tokens of a panel and of its operations. -/
structure Tokened (s : System) (mode : Mode) : Prop where
  sound : (s.world.control mode).Sound
  held_lt : ∀ n t, s.Holds mode n t → t < (s.world.control mode).cancelled.length
  held_unique : ∀ n k t, s.Holds mode n t → s.Holds mode k t → n = k

/-! ## Issuing and arriving -/

theorem holds_issue {r : World × Operation} (h : (s.issue r).Holds mode n t) :
    s.Holds mode n t ∨ n = s.operations.length ∧ r.2.mode = mode ∧ r.2.token? = some t := by
  obtain ⟨op, hop, hm, ht⟩ := h
  rcases operations_issue hop with hop | ⟨hn, rfl⟩
  · exact .inl ⟨op, hop, hm, ht⟩
  · exact .inr ⟨hn, hm, ht⟩

/-- An operation issued without a token changes nothing about who holds which. -/
theorem holds_issue_of_none {r : World × Operation} (h : (s.issue r).Holds mode n t)
    (hr : r.2.mode = mode → r.2.token? = none) : s.Holds mode n t := by
  rcases holds_issue h with h | ⟨_, hm, ht⟩
  · exact h
  · rw [hr hm] at ht
    cases ht

theorem holds_arrive {a : Arrival} (hop : s.operations[n]? = some op) :
    (s.act (.arrive n a)).Holds mode k t ↔
      if k = n then op.mode = mode ∧ (op.receive s.world a).2.token? = some t
      else s.Holds mode k t := by
  have hlt := (List.getElem?_eq_some_iff.mp hop).1
  rw [act_arrive hop]
  by_cases hk : k = n
  · subst hk
    simp [Holds, hlt, Operation.mode_receive]
  · have hk' : ¬ n = k := fun e => hk e.symm
    simp [Holds, hk, hk']

/-! ## Actions that concern another panel -/

/-- An action sends a prompt to the panel, stops it, or lets one of its operations make a step. -/
inductive Concerns (s : System) (mode : Mode) : Action → Prop
  | sent {workflowId text} : Concerns s mode (.send mode workflowId text)
  | stopped : Concerns s mode (.abort mode)
  | arrived {n op a} (hop : s.operations[n]? = some op) (hm : op.mode = mode) :
      Concerns s mode (.arrive n a)

/-- Nothing of a panel has changed. -/
structure Untouched (s s' : System) (mode : Mode) : Prop where
  control : s'.world.control mode = s.world.control mode
  holds : ∀ n t, s'.Holds mode n t ↔ s.Holds mode n t
  panel : s'.world.studio.panel mode = s.world.studio.panel mode
  streaming : s'.world.studio.isStreaming mode = s.world.studio.isStreaming mode

theorem Holds.lt (h : s.Holds mode n t) : n < s.operations.length := by
  obtain ⟨op, hop, _⟩ := h
  exact (List.getElem?_eq_some_iff.mp hop).1

theorem Holds.issue (h : s.Holds mode n t) (r : World × Operation) :
    (s.issue r).Holds mode n t := by
  have hlt := h.lt
  obtain ⟨op, hop, hm, ht⟩ := h
  refine ⟨op, ?_, hm, ht⟩
  show (s.operations ++ [r.2])[n]? = some op
  rw [List.getElem?_append_left hlt, hop]

/-- Whatever else happens leaves the panel as it is. -/
theorem untouched_act {x : Action} (h : ¬ s.Concerns mode x) : s.Untouched (s.act x) mode := by
  cases x with
  | send m workflowId text =>
    have hm : ¬ mode = m := fun e => h (e ▸ .sent)
    refine ⟨?_, fun n t => ⟨fun hn => ?_, fun hn => hn.issue _⟩, ?_, ?_⟩
    · simp [System.act, System.issue, World.send, hm]
    · exact holds_issue_of_none hn fun e => absurd e.symm hm
    · simp [System.act, System.issue, World.send, hm]
    · simp [System.act, System.issue, World.send, hm]
  | resume m workflowId =>
    have hworld : (s.act (.resume m workflowId)).world = s.world :=
      Operation.fst_resume s.world m workflowId
    refine ⟨by rw [hworld], fun n t => ⟨fun hn => ?_, fun hn => hn.issue _⟩, by rw [hworld],
      by rw [hworld]⟩
    exact holds_issue_of_none hn fun _ => Operation.token?_resume s.world m workflowId
  | load workflowId =>
    exact ⟨rfl, fun n t => ⟨fun hn => holds_issue_of_none hn fun _ => rfl, fun hn => hn.issue _⟩,
      rfl, rfl⟩
  | abort m =>
    have hm : ¬ mode = m := fun e => h (e ▸ .stopped)
    refine ⟨?_, fun _ _ => Iff.rfl, ?_, ?_⟩
    · show (s.world.abort m).control mode = _
      rw [World.control_abort, if_neg hm]
    · show (s.world.abort m).studio.panel mode = _
      rw [World.panel_abort, if_neg hm]
    · show (s.world.abort m).studio.isStreaming mode = _
      rw [World.isStreaming_abort, if_neg hm]
  | arrive n a =>
    cases hop : s.operations[n]? with
    | none =>
      rw [act_arrive_none hop]
      exact ⟨rfl, fun _ _ => Iff.rfl, rfl, rfl⟩
    | some op =>
      have hm : ¬ op.mode = mode := fun e => h (.arrived hop e)
      obtain ⟨hc, hpanel, hbusy⟩ :=
        Operation.receive_other (w := s.world) (a := a) fun e => hm e.symm
      refine ⟨by rw [act_arrive hop, hc], fun k t => ?_, by rw [act_arrive hop, hpanel],
        by rw [act_arrive hop, hbusy]⟩
      rw [holds_arrive hop]
      by_cases hk : k = n
      · subst hk
        rw [if_pos rfl]
        refine ⟨fun hn => absurd hn.1 hm, fun hn => ?_⟩
        obtain ⟨op', hop', hm', _⟩ := hn
        obtain rfl := Option.some.inj (hop.symm.trans hop')
        exact absurd hm' hm
      · rw [if_neg hk]

/-! ## What an action does to tokens -/

/-- An operation takes the panel over: a prompt is sent, or an execution is followed again. -/
inductive TakesOver (s : System) (mode : Mode) : Action → Prop
  | sent {workflowId text} : TakesOver s mode (.send mode workflowId text)
  | resumed {n op executionId x} (hop : s.operations[n]? = some op) (hm : op.mode = mode)
      (hs : op.stage = .lookingUp executionId) (hx : x.status.isResumable = true) :
      TakesOver s mode (.arrive n (.execution (.ok x)))

theorem TakesOver.control {x : Action} (h : s.TakesOver mode x) :
    (s.act x).world.control mode = (s.world.control mode).renew.1 := by
  cases h with
  | sent => simp [System.act, System.issue, World.send]
  | resumed hop hm hs hx =>
    rw [act_arrive hop]
    unfold Operation.receive
    rw [hs]
    simp [hx, hm]

/-- An action hands out no token of the panel, or lets an operation take the panel over, which then
holds the token handed out, or stops the panel. -/
theorem act_tokens (s : System) (mode : Mode) (x : Action) :
    ((s.act x).world.control mode = s.world.control mode ∧
        ∀ n t, (s.act x).Holds mode n t → s.Holds mode n t) ∨
      (s.TakesOver mode x ∧ (s.act x).world.control mode = (s.world.control mode).renew.1 ∧
        ∃ k, ∀ n t, (s.act x).Holds mode n t →
          s.Holds mode n t ∨ n = k ∧ t = (s.world.control mode).cancelled.length) ∨
      x = .abort mode := by
  by_cases hx : s.Concerns mode x
  · cases hx with
    | sent =>
      refine .inr (.inl ⟨.sent, TakesOver.sent.control, s.operations.length, fun n t hn => ?_⟩)
      rcases holds_issue hn with hn | ⟨hnk, _, ht⟩
      · exact .inl hn
      · exact .inr ⟨hnk, (Option.some.inj ht).symm⟩
    | stopped => exact .inr (.inr rfl)
    | @arrived n op a hop hm =>
      subst hm
      rcases Operation.control_receive s.world op a with ⟨hc, hkeep⟩ | ⟨hc, ht, _, _, hs, ha, hx⟩
      · refine .inl ⟨by rw [act_arrive hop, hc], fun k t hk => ?_⟩
        rw [holds_arrive hop] at hk
        split at hk
        · rename_i hkn
          exact hkn ▸ ⟨op, hop, rfl, hkeep t hk.2⟩
        · exact hk
      -- only the operation that makes the step gets the token handed out
      · refine .inr (.inl ⟨ha ▸ .resumed hop rfl hs hx, by rw [act_arrive hop, hc], n,
          fun k t hk => ?_⟩)
        rw [holds_arrive hop] at hk
        split at hk
        · rename_i hkn
          exact .inr ⟨hkn, Option.some.inj (hk.2.symm.trans ht)⟩
        · exact .inl hk
  · have hsame := untouched_act hx
    exact .inl ⟨hsame.control, fun n t => (hsame.holds n t).mp⟩

/-! ## Preservation -/

theorem tokened_new (settings : Settings) (studio : Studio) (tasks : Tasks) (mode : Mode) :
    (new settings studio tasks).Tokened mode where
  sound := by cases mode <;> exact Control.sound_new
  held_lt n t h := by
    obtain ⟨op, hop, _⟩ := h
    simp [new] at hop
  held_unique n k t h _ := by
    obtain ⟨op, hop, _⟩ := h
    simp [new] at hop

/-- The tokens stay in order when no token is handed out in the panel, and no operation gets one. -/
theorem Tokened.keep {s' : System} (h : s.Tokened mode)
    (hc : s'.world.control mode = s.world.control mode)
    (hh : ∀ n t, s'.Holds mode n t → s.Holds mode n t) : s'.Tokened mode where
  sound := hc ▸ h.sound
  held_lt n t ht := hc ▸ h.held_lt n t (hh n t ht)
  held_unique n k t hn hk := h.held_unique n k t (hh n t hn) (hh k t hk)

/-- The tokens stay in order when the operation `k` takes the panel over. -/
theorem Tokened.renew {s' : System} (h : s.Tokened mode)
    (hc : s'.world.control mode = (s.world.control mode).renew.1)
    (hh : ∀ n t, s'.Holds mode n t →
      s.Holds mode n t ∨ n = k ∧ t = (s.world.control mode).cancelled.length) :
    s'.Tokened mode where
  sound := hc ▸ Control.sound_renew h.sound
  held_lt n t ht := by
    rw [hc, Control.length_renew]
    rcases hh n t ht with ht | ⟨_, rfl⟩
    · exact Nat.lt_succ_of_lt (h.held_lt n t ht)
    · exact Nat.lt_succ_self _
  held_unique n j t hn hj := by
    rcases hh n t hn with hn | ⟨hnk, hnt⟩ <;> rcases hh j t hj with hj | ⟨hjk, hjt⟩
    · exact h.held_unique n j t hn hj
    · exact absurd (h.held_lt n t hn) (hjt ▸ Nat.lt_irrefl _)
    · exact absurd (h.held_lt j t hj) (hnt ▸ Nat.lt_irrefl _)
    · exact hnk.trans hjk.symm

/-- A panel is held after a step as before when its tokens and those who hold live ones are the
same. -/
theorem owned_congr {s' : System} (hc : s'.world.control mode = s.world.control mode)
    (hh : ∀ n t, (s.world.control mode).Live t → (s'.Holds mode n t ↔ s.Holds mode n t)) :
    s'.Owned mode ↔ s.Owned mode := by
  constructor
  · rintro ⟨n, t, hn, ht⟩
    rw [hc] at ht
    exact ⟨n, t, (hh n t ht).mp hn, ht⟩
  · rintro ⟨n, t, hn, ht⟩
    exact ⟨n, t, (hh n t ht).mpr hn, hc ▸ ht⟩

/-- An arrival that neither hands out a token of the panel nor takes a live one from the operation
leaves the panel to whom it was. -/
theorem owned_arrive {a : Arrival} (hop : s.operations[n]? = some op)
    (hc : (op.receive s.world a).1.control op.mode = s.world.control op.mode)
    (ht : ∀ t, (s.world.control op.mode).Live t →
      ((op.receive s.world a).2.token? = some t ↔ op.token? = some t)) :
    (s.act (.arrive n a)).Owned op.mode ↔ s.Owned op.mode := by
  refine owned_congr (by rw [act_arrive hop, hc]) fun k t hlive => ?_
  rw [holds_arrive hop]
  by_cases hk : k = n
  · subst hk
    have hheld : s.Holds op.mode k t ↔ op.token? = some t := by
      constructor
      · rintro ⟨op', hop', _, ht'⟩
        obtain rfl := Option.some.inj (hop.symm.trans hop')
        exact ht'
      · exact fun ht' => ⟨op, hop, rfl, ht'⟩
    rw [if_pos rfl, hheld, ht t hlive]
    simp
  · rw [if_neg hk]

/-- Stopping a panel leaves none of its tokens live. -/
theorem not_live_act_abort (h : (s.world.control mode).Sound) :
    ¬ ((s.act (.abort mode)).world.control mode).Live t := by
  have hc : (s.act (.abort mode)).world.control mode = (s.world.control mode).abort.1 := by
    show (s.world.abort mode).control mode = _
    rw [World.control_abort, if_pos rfl]
  rw [hc]
  exact Control.not_live_abort h

theorem Tokened.act (h : s.Tokened mode) (x : Action) : (s.act x).Tokened mode := by
  rcases act_tokens s mode x with ⟨hc, hh⟩ | ⟨_, hc, k, hh⟩ | rfl
  · exact h.keep hc hh
  · exact h.renew hc hh
  · refine ⟨fun t ht => absurd ht (not_live_act_abort h.sound), fun n t ht => ?_,
      fun n k t => h.held_unique n k t⟩
    show t < ((s.world.abort mode).control mode).cancelled.length
    rw [World.control_abort, if_pos rfl, Control.length_abort]
    exact h.held_lt n t ht

theorem Tokened.run (h : s.Tokened mode) (as : List Action) : (s.run as).Tokened mode :=
  run_induction (P := fun s => s.Tokened mode) (fun _ x _ hs => hs.act x) h

/-- The tokens are in order in every state of every schedule. -/
theorem tokened_run (settings : Settings) (studio : Studio) (tasks : Tasks) (mode : Mode)
    (as : List Action) : ((new settings studio tasks).run as).Tokened mode :=
  (tokened_new settings studio tasks mode).run as

end System

end PromptStudio
