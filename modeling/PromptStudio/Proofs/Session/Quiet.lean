import PromptStudio.Proofs.Session.Heard
import PromptStudio.Proofs.Session.Listening
import PromptStudio.Proofs.Session.Shown

/-!
# Panels at rest

When no operation of a panel is in flight, nobody holds the panel (`Quiescent.not_owned`). A panel
that nobody holds should be idle and without an active turn, and is so but for two kinds of steps.
An operation that has been superseded marks the panel as busy when it gets the lock to record its
prompt (`MarksStale`); the panel stays busy until something marks it as idle (`MarksIdle`). And a
resume takes the panel over without letting go of the active turn, and does not let go of it either
when it is then refused its stream (`LeavesOpen`); the turn stays active until `Settles`. `busy_run`
and `active_run` are the two invariants that say that nothing else matters.
-/

namespace PromptStudio

namespace System

variable {s : System} {mode : Mode}

/-- No operation of the panel is in flight. -/
def Quiescent (s : System) (mode : Mode) : Prop :=
  ∀ op ∈ s.operations, op.mode = mode → op.result?.isSome = true

theorem Quiescent.not_owned (h : s.Quiescent mode) : ¬ s.Owned mode := by
  rintro ⟨n, t, ⟨op, hop, hm, ht⟩, _⟩
  have hdone := h op (List.mem_of_getElem? hop) hm
  unfold Operation.token? at ht
  unfold Operation.result? at hdone
  cases hs : op.stage with
  | finished r =>
    rw [hs] at ht
    cases ht
  | submitting _ _ _ | lookingUp _ | opening _ _ _ | following _ _ _ | loading _ =>
    rw [hs] at hdone
    cases hdone

end System

namespace Operation

variable {w : World} {op : Operation} {a : Arrival} {o : Outcome}

/-- What ends a stream before the lock is needed leaves a turn open. -/
theorem isInterrupted_of_reach (h : (op.reach w a).2 = some (.settle o)) :
    o.isInterrupted = true := by
  have hreach := reach_cases w op a
  generalize op.reach w a = r at h hreach
  cases hreach with
  | lost _ _ ha =>
    obtain rfl := Section.settle.inj (Option.some.inj h)
    cases a <;> first | (obtain rfl := Option.some.inj ha; rfl) | cases ha
  | refused | resumed | loaded | heard => cases Option.some.inj h
  | ignored | ticketed | dismissed | opened | unloaded | noticed => cases h

end Operation

namespace Contention

variable {c start : Contention} {x : Move} {moves : List Move} {n : Nat} {op : Operation}
  {part : Section} {mode : Mode}

/-- Neither an operation of the panel nor a stop of it is in flight. -/
def Quiescent (c : Contention) (mode : Mode) : Prop :=
  c.system.Quiescent mode ∧ mode ∉ c.stopping

/-- An operation that has been superseded records its prompt or marks its panel. -/
inductive MarksStale (c : Contention) (mode : Mode) : Move → Prop
  | intro {n : Nat} {op : Operation} {part : Section} (hw : c.waiting n = some part)
      (hop : c.system.operations[n]? = some op) (hm : op.mode = mode)
      (hs : op.isSuperseded c.system.world = true)
      (hpart : part = .mark ∨ ∃ text, part = .record text) : MarksStale c mode (.enter n)

/-- The panel is marked as idle: an operation gives up, the stream of the one that holds the panel
ends, or a stop is carried out. -/
inductive MarksIdle (c : Contention) (mode : Mode) : Move → Prop
  | refused {n : Nat} {op : Operation} {e : Failure} (hw : c.waiting n = some (.refuse e))
      (hop : c.system.operations[n]? = some op) (hm : op.mode = mode) :
      MarksIdle c mode (.enter n)
  | ended {n : Nat} {op : Operation} {f : Frame} {o : Outcome} (hw : c.waiting n = some (.apply f))
      (hop : c.system.operations[n]? = some op) (hm : op.mode = mode)
      (hs : op.isSuperseded c.system.world = false) (hf : World.endOf? mode f = some o) :
      MarksIdle c mode (.enter n)
  | settled {n : Nat} {op : Operation} {o : Outcome} (hw : c.waiting n = some (.settle o))
      (hop : c.system.operations[n]? = some op) (hm : op.mode = mode)
      (hs : op.isSuperseded c.system.world = false) : MarksIdle c mode (.enter n)
  | cleared (h : mode ∈ c.stopping) : MarksIdle c mode (.clear mode)

/-- The operation that holds the panel is refused its ticket or its stream while a turn is
active. -/
inductive LeavesOpen (c : Contention) (mode : Mode) : Move → Prop
  | intro {n : Nat} {op : Operation} {e : Failure} (hw : c.waiting n = some (.refuse e))
      (hop : c.system.operations[n]? = some op) (hm : op.mode = mode)
      (hs : op.isSuperseded c.system.world = false)
      (hopen : (c.system.world.studio.panel mode).active ≠ none) : LeavesOpen c mode (.enter n)

/-- The panel is taken over, a prompt is recorded, a stop is carried out, or the transcript is
replaced. -/
inductive Settles (c : Contention) (mode : Mode) : Move → Prop
  | takenOver {y : Move} (h : c.TakesOver mode y) : Settles c mode y
  | recorded {n : Nat} {op : Operation} {text : String} (hw : c.waiting n = some (.record text))
      (hop : c.system.operations[n]? = some op) (hm : op.mode = mode) : Settles c mode (.enter n)
  | cleared (h : mode ∈ c.stopping) : Settles c mode (.clear mode)
  | loaded {n : Nat} {op : Operation} {entries : List Entry}
      (hw : c.waiting n = some (.load entries)) (hop : c.system.operations[n]? = some op)
      (hm : op.mode = mode) : Settles c mode (.enter n)

/-- Every prompt and every mark that came late has been followed by a step that marks the panel as
idle. -/
def Recovered (start : Contention) (mode : Mode) (moves : List Move) : Prop :=
  Steps.FollowedBy move start (MarksStale · mode) (MarksIdle · mode) moves

/-- Every refusal that left a turn open has been followed by a step that settles the panel. -/
def Settled (start : Contention) (mode : Mode) (moves : List Move) : Prop :=
  Steps.FollowedBy move start (LeavesOpen · mode) (Settles · mode) moves

theorem recovered_concat : start.Recovered mode (moves ++ [x]) ↔
    ¬ (start.run moves).MarksStale mode x ∧
      ((start.run moves).MarksIdle mode x ∨ start.Recovered mode moves) := Steps.followedBy_concat

theorem settled_concat : start.Settled mode (moves ++ [x]) ↔
    ¬ (start.run moves).LeavesOpen mode x ∧
      ((start.run moves).Settles mode x ∨ start.Settled mode moves) := Steps.followedBy_concat

theorem shown_enter (hw : c.waiting n = some part) (hop : c.system.operations[n]? = some op)
    (hm : op.mode ≠ mode) :
    (c.move (.enter n)).system.world.studio.panel mode = c.system.world.studio.panel mode ∧
      (c.move (.enter n)).system.world.studio.isStreaming mode =
        c.system.world.studio.isStreaming mode := by
  rw [move_enter hw hop, world_put]
  exact Operation.enter_other fun e => hm e.symm

theorem stopping_move (x : Move) (h : mode ∈ c.stopping) :
    mode ∈ (c.move x).stopping ∨ x = .clear mode := by
  have hmade := made c x
  generalize c.move x = c' at hmade
  cases hmade with
  | idle | sent | resumed | loaded | reached | entered => exact .inl h
  | stopped => exact .inl (List.mem_cons_of_mem _ h)
  | @cleared m hm =>
    by_cases hmode : mode = m
    · exact .inr (hmode ▸ rfl)
    · exact .inl ((List.mem_erase_of_ne hmode).mpr h)

/-! ## The busy flag -/

theorem MarksStale.busy (h : c.MarksStale mode x) (hfits : c.Fitting) :
    (c.move x).system.world.studio.isStreaming mode = true := by
  obtain ⟨hw, hop, rfl, _, hpart⟩ := h
  rw [move_enter hw hop, world_put, Operation.isStreaming_enter _ (hfits.fits hw hop)]
  rcases hpart with rfl | ⟨text, rfl⟩ <;> rfl

theorem MarksIdle.idle (h : c.MarksIdle mode x) (hfits : c.Fitting) :
    (c.move x).system.world.studio.isStreaming mode = false := by
  cases h with
  | refused hw hop hm =>
    subst hm
    rw [move_enter hw hop, world_put, Operation.isStreaming_enter _ (hfits.fits hw hop)]
  | @ended n op f o hw hop hm hs hf =>
    subst hm
    have hstart : f.isStart op.mode = false := Bool.eq_false_iff.mpr fun hstart => by
      rw [World.endOf?_of_isStart hstart] at hf
      cases hf
    rw [move_enter hw hop, world_put, Operation.isStreaming_enter _ (hfits.fits hw hop)]
    simp [hs, hf, hstart]
  | settled hw hop hm hs =>
    subst hm
    rw [move_enter hw hop, world_put, Operation.isStreaming_enter _ (hfits.fits hw hop)]
    simp [hs]
  | cleared h =>
    show (c.clear mode).system.world.studio.isStreaming mode = false
    unfold clear
    rw [if_pos h]
    simp

/-- A busy panel stays busy until something marks it as idle. -/
theorem busy_of_busy (hfits : c.Fitting) (hx : ¬ c.MarksIdle mode x)
    (hbusy : c.system.world.studio.isStreaming mode = true) :
    (c.move x).system.world.studio.isStreaming mode = true := by
  cases x with
  | act y => rwa [studio_act]
  | clear m =>
    have hmade := made c (.clear m)
    generalize c.move (.clear m) = c' at hmade
    cases hmade with
    | idle => exact hbusy
    | cleared h =>
      have hm : ¬ mode = m := fun e => hx (e ▸ .cleared (e ▸ h))
      show (c.system.world.clear m).studio.isStreaming mode = true
      rwa [World.isStreaming_clear, if_neg hm]
  | enter n =>
    cases hw : c.waiting n with
    | none => rwa [move_enter_of_none hw]
    | some part =>
      obtain ⟨op, hop, hfit⟩ := hfits n part hw
      by_cases hm : op.mode = mode
      · subst hm
        rw [move_enter hw hop, world_put, Operation.isStreaming_enter _ hfit]
        cases part with
        | record text | mark => rfl
        | refuse e => exact absurd (.refused hw hop rfl) hx
        | load entries => exact hbusy
        | apply f =>
          dsimp only
          split
          · exact hbusy
          · rename_i hs
            cases hf : World.endOf? op.mode f with
            | none => simp [hbusy]
            | some o => exact absurd (.ended hw hop rfl (Bool.eq_false_iff.mpr hs) hf) hx
        | settle o =>
          dsimp only
          split
          · exact hbusy
          · rename_i hs
            exact absurd (.settled hw hop rfl (Bool.eq_false_iff.mpr hs)) hx
      · rwa [(shown_enter hw hop hm).2]

/-- Who holds the panel goes on holding it, is superseded or stopped, or marks the panel as idle. -/
theorem owned_move (h : c.system.Owned mode) (ht : c.system.Tokened mode) (hfits : c.Fitting)
    (hx : ¬ c.MarksIdle mode x) : (c.move x).system.Owned mode ∨ x = .act (.abort mode) := by
  obtain ⟨n, hn⟩ := h
  by_cases htaken : c.TakesOver mode x
  · obtain ⟨k, _, hk, _⟩ := htaken.heldBy ht
    exact .inl ⟨k, hk⟩
  · by_cases hstop : x = .act (.abort mode)
    · exact .inr hstop
    · rcases HeldBy.move hn hfits htaken hstop with
        hkept | ⟨op, part, rfl, hw, hop, hm, hs, ⟨e, rfl⟩ | ⟨o, rfl⟩⟩
      · exact .inl ⟨n, hkept⟩
      · exact absurd (.refused hw hop hm) hx
      · exact absurd (.settled hw hop hm hs) hx

/-- A panel becomes busy by an operation that holds it, or is marked as busy late. -/
theorem owned_of_busy (ht : c.system.Tokened mode) (hfits : c.Fitting)
    (hx : ¬ c.MarksStale mode x) (hidle : c.system.world.studio.isStreaming mode = false)
    (hbusy : (c.move x).system.world.studio.isStreaming mode = true) :
    (c.move x).system.Owned mode := by
  obtain ⟨n, op, part, rfl, hw, hop, hm, hpart⟩ := busy_move hfits hidle hbusy
  subst hm
  have hlive : op.isSuperseded c.system.world = false := by
    rcases hpart with ⟨text, rfl⟩ | rfl | ⟨f, _, hs⟩
    · exact Bool.eq_false_iff.mpr fun hs => hx (.intro hw hop rfl hs (.inr ⟨text, rfl⟩))
    · exact Bool.eq_false_iff.mpr fun hs => hx (.intro hw hop rfl hs (.inl rfl))
    · exact hs
  have hheld : c.HeldBy op.mode n := by
    refine heldBy_of_waiting ht hfits hw hop (fun entries e => ?_) hlive
    rcases hpart with ⟨text, rfl⟩ | rfl | ⟨f, rfl, _⟩ <;> cases e
  refine ⟨n, hheld.enter hfits hw (fun e he => ?_) fun o ho => ?_⟩
  · rcases hpart with ⟨text, rfl⟩ | rfl | ⟨f, rfl, _⟩ <;> cases he
  · rcases hpart with ⟨text, rfl⟩ | rfl | ⟨f, rfl, _⟩ <;> cases ho

/-- A panel is busy only if somebody holds it, it is being stopped, or it has been marked as busy
late and not as idle since; and then it is busy. -/
theorem busy_run (settings : Settings) {studio : Studio} (tasks : Tasks)
    (hidle : studio.isStreaming mode = false) (moves : List Move) :
    let start := new settings studio tasks
    let c := start.run moves
    (c.system.world.studio.isStreaming mode = true →
      c.system.Owned mode ∨ mode ∈ c.stopping ∨ ¬ start.Recovered mode moves) ∧
    (¬ start.Recovered mode moves → c.system.world.studio.isStreaming mode = true) := by
  induction moves using List.reverseRecOn with
  | nil =>
    refine ⟨fun hbusy => ?_, fun h => absurd (Steps.followedBy_nil _ _ _) h⟩
    rw [show studio.isStreaming mode = true from hbusy] at hidle
    cases hidle
  | append_singleton moves x ih =>
    obtain ⟨hcause, hlate⟩ := ih
    have ht := tokened_run settings studio tasks mode moves
    have hfits := fitting_run settings studio tasks moves
    dsimp only
    rw [run_concat, recovered_concat]
    generalize (new settings studio tasks).run moves = c at *
    by_cases hs : c.MarksStale mode x
    · exact ⟨fun _ => .inr (.inr fun h => h.1 hs), fun _ => hs.busy hfits⟩
    by_cases hi : c.MarksIdle mode x
    · refine ⟨fun hbusy => ?_, fun h => absurd ⟨hs, .inl hi⟩ h⟩
      rw [hi.idle hfits] at hbusy
      cases hbusy
    refine ⟨fun hbusy' => ?_, fun h => ?_⟩
    · cases hbusy : c.system.world.studio.isStreaming mode with
      | false => exact .inl (owned_of_busy ht hfits hs hbusy hbusy')
      | true =>
        rcases hcause hbusy with howned | hstopping | hopen
        · rcases owned_move howned ht hfits hi with howned' | rfl
          · exact .inl howned'
          · exact .inr (.inl List.mem_cons_self)
        · rcases stopping_move x hstopping with hstopping' | rfl
          · exact .inr (.inl hstopping')
          · exact absurd (.cleared hstopping) hi
        · exact .inr (.inr fun h => hopen (h.2.resolve_left hi))
    · exact busy_of_busy hfits hi (hlate fun h' => h ⟨hs, .inr h'⟩)

/-! ## The active turn -/

/-- A turn becomes active only by a frame that the operation which holds the panel applies. -/
theorem hears_of_active (hfits : c.Fitting)
    (hnone : (c.system.world.studio.panel mode).active = none)
    (hopen : ((c.move x).system.world.studio.panel mode).active ≠ none) :
    ∃ n op f, x = .enter n ∧ c.waiting n = some (.apply f) ∧
      c.system.operations[n]? = some op ∧ op.mode = mode ∧
      op.isSuperseded c.system.world = false := by
  cases x with
  | act y =>
    rw [studio_act] at hopen
    exact absurd hnone hopen
  | clear m =>
    have hmade := made c (.clear m)
    generalize c.move (.clear m) = c' at hmade hopen
    cases hmade with
    | idle => exact absurd hnone hopen
    | cleared =>
      have hpanel : ((c.system.world.clear m).studio.panel mode).active ≠ none := hopen
      rw [World.panel_clear] at hpanel
      split at hpanel
      · exact absurd rfl hpanel
      · exact absurd hnone hpanel
  | enter n =>
    cases hw : c.waiting n with
    | none =>
      rw [move_enter_of_none hw] at hopen
      exact absurd hnone hopen
    | some part =>
      obtain ⟨op, hop, hfit⟩ := hfits n part hw
      by_cases hm : op.mode = mode
      · subst hm
        rw [move_enter hw hop, world_put, Operation.active_enter _ hfit] at hopen
        cases part with
        | apply f =>
          refine ⟨n, op, f, rfl, hw, hop, rfl, Bool.eq_false_iff.mpr fun hs => ?_⟩
          simp [hs, hnone] at hopen
        | record text | load entries => exact absurd rfl hopen
        | mark | refuse e | settle o => exact absurd (by simp [hnone]) hopen
      · rw [(shown_enter hw hop hm).1] at hopen
        exact absurd hnone hopen

/-- When the stream of the operation that holds the panel has ended in good order, its turn has been
closed already. -/
def Closed (c : Contention) (mode : Mode) : Prop :=
  ∀ n o, c.HeldBy mode n → c.waiting n = some (.settle o) → o.isInterrupted = false →
    (c.system.world.studio.panel mode).active = none

theorem Closed.move (h : c.Closed mode) (ht : c.system.Tokened mode) (hfits : c.Fitting)
    (x : Move) :
    (c.move x).Closed mode := by
  intro n o hn hw ho
  rcases waiting_move hw with
    hold | ⟨_, text, hpart⟩ | ⟨a, op, _, _, _, hreach⟩ | ⟨part, op, rfl, hw', hop, henter⟩
  · -- the turn was closed before, and only this operation could open another one
    have hheld : c.HeldBy mode n := by
      rcases heldBy_move ht hn with ⟨_, hheld⟩ | ⟨htaken, hactor⟩
      · exact hheld
      · obtain ⟨k, hactor', _, hwaits⟩ := htaken.heldBy ht
        obtain rfl := Option.some.inj (hactor.symm.trans hactor')
        rcases hwaits with hwaits | ⟨text, hwaits⟩ <;> cases hw.symm.trans hwaits
    by_contra hopen
    obtain ⟨k, op, f, rfl, hk, hop, hm, hs⟩ := hears_of_active hfits (h n o hheld hold ho) hopen
    subst hm
    have hkheld := heldBy_of_waiting ht hfits hk hop (fun _ e => by cases e) hs
    obtain rfl := hkheld.unique ht hheld
    cases hk.symm.trans hold
  · cases hpart
  · rw [Operation.isInterrupted_of_reach hreach] at ho
    cases ho
  · obtain ⟨f, _, rfl, hf, hnext⟩ := Operation.enter_next henter
    cases hnext
    obtain ⟨hm, hs⟩ := (heldBy_enter ht hn).not_superseded hop
    subst hm
    rw [move_enter hw' hop, world_put, Operation.active_enter _ (hfits.fits hw' hop)]
    simp [hs, Panel.active_hear _ hf]

theorem closed_run (settings : Settings) (studio : Studio) (tasks : Tasks) (moves : List Move) :
    ((new settings studio tasks).run moves).Closed mode := by
  induction moves using List.reverseRecOn with
  | nil =>
    rintro n o ⟨t, ⟨op, hop, _⟩, _⟩
    cases hop
  | append_singleton moves x ih =>
    rw [run_concat]
    exact ih.move (tokened_run settings studio tasks mode moves)
      (fitting_run settings studio tasks moves) x

theorem LeavesOpen.active (h : c.LeavesOpen mode x) (ht : c.system.Tokened mode)
    (hfits : c.Fitting) :
    ((c.move x).system.world.studio.panel mode).active ≠ none ∧ ¬ (c.move x).system.Owned mode := by
  obtain ⟨hw, hop, rfl, hs, hopen⟩ := h
  refine ⟨?_, ?_⟩
  · rwa [move_enter hw hop, world_put, Operation.active_enter _ (hfits.fits hw hop)]
  · rintro ⟨k, hk⟩
    have hheld := heldBy_of_waiting ht hfits hw hop (fun _ e => by cases e) hs
    obtain rfl := (heldBy_enter ht hk).unique ht hheld
    obtain ⟨t, hholds, _⟩ := hk
    rw [move_enter hw hop, holds_put hop, if_pos rfl] at hholds
    cases hholds.2

theorem Settles.settled (h : c.Settles mode x) (ht : c.system.Tokened mode) (hfits : c.Fitting) :
    (c.move x).system.Owned mode ∨ ((c.move x).system.world.studio.panel mode).active = none := by
  cases h with
  | takenOver htaken =>
    obtain ⟨k, _, hk, _⟩ := htaken.heldBy ht
    exact .inl ⟨k, hk⟩
  | recorded hw hop hm | loaded hw hop hm =>
    subst hm
    right
    rw [move_enter hw hop, world_put, Operation.active_enter _ (hfits.fits hw hop)]
  | cleared h =>
    right
    show ((c.clear mode).system.world.studio.panel mode).active = none
    unfold clear
    rw [if_pos h]
    simp [Panel.detach]

/-- A turn that is active while nobody holds the panel stays active until the panel is settled. -/
theorem active_of_active (ht : c.system.Tokened mode) (hfits : c.Fitting)
    (hx : ¬ c.Settles mode x) (hfree : ¬ c.system.Owned mode)
    (hopen : (c.system.world.studio.panel mode).active ≠ none) :
    ((c.move x).system.world.studio.panel mode).active ≠ none := by
  cases x with
  | act y => rwa [studio_act]
  | clear m =>
    have hmade := made c (.clear m)
    generalize c.move (.clear m) = c' at hmade
    cases hmade with
    | idle => exact hopen
    | cleared h =>
      have hm : ¬ mode = m := fun e => hx (e ▸ .cleared (e ▸ h))
      show ((c.system.world.clear m).studio.panel mode).active ≠ none
      rwa [World.panel_clear, if_neg hm]
  | enter n =>
    cases hw : c.waiting n with
    | none => rwa [move_enter_of_none hw]
    | some part =>
      obtain ⟨op, hop, hfit⟩ := hfits n part hw
      by_cases hm : op.mode = mode
      · subst hm
        -- nobody holds the panel, so this operation has been superseded
        have hstale : (∀ entries, part ≠ .load entries) →
            op.isSuperseded c.system.world = true := fun hpart => by
          by_contra hs
          exact hfree ⟨n, heldBy_of_waiting ht hfits hw hop hpart (Bool.eq_false_iff.mpr hs)⟩
        rw [move_enter hw hop, world_put, Operation.active_enter _ hfit]
        cases part with
        | record text => exact absurd (.recorded hw hop rfl) hx
        | load entries => exact absurd (.loaded hw hop rfl) hx
        | mark | refuse e => exact hopen
        | apply f | settle o => simpa [hstale (fun _ e => by cases e)] using hopen
      · rwa [(shown_enter hw hop hm).1]

/-- A turn is active only while somebody holds the panel or it is being stopped, or if it has been
left open and the panel has not been settled since; and then it is active, and nobody holds the
panel. -/
theorem active_run (settings : Settings) {studio : Studio} (tasks : Tasks)
    (hturn : (studio.panel mode).active = none) (moves : List Move) :
    let start := new settings studio tasks
    let c := start.run moves
    ((c.system.world.studio.panel mode).active ≠ none →
      c.system.Owned mode ∨ mode ∈ c.stopping ∨ ¬ start.Settled mode moves) ∧
    (¬ start.Settled mode moves →
      (c.system.world.studio.panel mode).active ≠ none ∧ ¬ c.system.Owned mode) := by
  induction moves using List.reverseRecOn with
  | nil => exact ⟨fun h => absurd hturn h, fun h => absurd (Steps.followedBy_nil _ _ _) h⟩
  | append_singleton moves x ih =>
    obtain ⟨hcause, hleft⟩ := ih
    have ht := tokened_run settings studio tasks mode moves
    have hfits := fitting_run settings studio tasks moves
    have hclosed : ((new settings studio tasks).run moves).Closed mode :=
      closed_run settings studio tasks moves
    dsimp only
    rw [run_concat, settled_concat]
    generalize (new settings studio tasks).run moves = c at *
    by_cases hl : c.LeavesOpen mode x
    · exact ⟨fun _ => .inr (.inr fun h => h.1 hl), fun _ => hl.active ht hfits⟩
    by_cases hs : c.Settles mode x
    · refine ⟨fun hopen => ?_, fun h => absurd ⟨hl, .inl hs⟩ h⟩
      exact .inl ((hs.settled ht hfits).resolve_right hopen)
    refine ⟨fun hopen' => ?_, fun h => ?_⟩
    · by_cases hopen : (c.system.world.studio.panel mode).active = none
      · obtain ⟨n, op, f, rfl, hw, hop, hm, hlive⟩ := hears_of_active hfits hopen hopen'
        subst hm
        have hheld := heldBy_of_waiting ht hfits hw hop (fun _ e => by cases e) hlive
        exact .inl ⟨n, hheld.enter hfits hw (fun _ e => by cases e) fun _ e => by cases e⟩
      · rcases hcause hopen with ⟨n, hn⟩ | hstopping | hleftopen
        · by_cases hstop : x = .act (.abort mode)
          · subst hstop
            exact .inr (.inl List.mem_cons_self)
          rcases HeldBy.move hn hfits (fun h => hs (.takenOver h)) hstop with
            hkept | ⟨op, part, rfl, hw, hop, hm, hlive, ⟨e, rfl⟩ | ⟨o, rfl⟩⟩
          · exact .inl ⟨n, hkept⟩
          · exact absurd (.intro hw hop hm hlive hopen) hl
          · subst hm
            -- a stream that ends in good order has closed its turn before
            rw [move_enter hw hop, world_put,
              Operation.active_enter _ (hfits.fits hw hop)] at hopen'
            cases ho : o.isInterrupted with
            | true => exact absurd (by simp [hlive, ho]) hopen'
            | false => exact absurd (hclosed n o hn hw ho) hopen
        · rcases stopping_move x hstopping with hstopping' | rfl
          · exact .inr (.inl hstopping')
          · exact absurd (.cleared hstopping) hs
        · exact .inr (.inr fun h => hleftopen (h.2.resolve_left hs))
    · obtain ⟨hopen, hfree⟩ := hleft fun h' => h ⟨hl, .inr h'⟩
      refine ⟨active_of_active ht hfits hs hfree hopen, fun ⟨k, hk⟩ => ?_⟩
      rcases heldBy_move ht hk with ⟨_, hold⟩ | ⟨htaken, _⟩
      · exact hfree ⟨k, hold⟩
      · exact hs (.takenOver htaken)

/-! ## Only a resume leaves a turn open -/

/-- An operation that holds the panel and does not follow its stream after a move has not followed
it before. -/
theorem not_following_of_move {op' : Operation} (hn : (c.move x).HeldBy mode n)
    (hop : c.system.operations[n]? = some op) (hop' : (c.move x).system.operations[n]? = some op')
    (hearly : ∀ u graphId executionId, op'.stage ≠ .following u graphId executionId) (u : Token)
    (graphId executionId : String) : op.stage ≠ .following u graphId executionId := by
  intro hs
  have hstreamed : op'.Streamed := by
    have hbefore : op.Streamed := .inl ⟨u, graphId, executionId, hs⟩
    rcases operations_move_of_some x hop with h | ⟨a, _, h⟩ | ⟨part, _, _, h⟩ <;>
      obtain rfl := Option.some.inj (hop'.symm.trans h)
    · exact hbefore
    · exact Operation.streamed_reach hbefore
    · exact Operation.streamed_enter hbefore
  rcases hstreamed with ⟨_, _, _, h⟩ | ⟨r, hr⟩
  · exact hearly _ _ _ h
  · obtain ⟨t, ⟨op'', hop'', _, ht⟩, _⟩ := hn
    obtain rfl := Option.some.inj (hop''.symm.trans hop')
    unfold Operation.token? at ht
    rw [hr] at ht
    cases ht

/-- An operation that still has its prompt to record has it after a move, or it has just let go of
the active turn. -/
theorem record_move (hfits : c.Fitting) (hn : c.HeldBy mode n) {text : String}
    (hw : c.waiting n = some (.record text)) :
    (c.move x).waiting n = some (.record text) ∨
      ((c.move x).system.world.studio.panel mode).active = none := by
  cases x with
  | act y => exact .inl (waiting_act hfits hw y)
  | clear m =>
    have hsame : (c.move (.clear m)).waiting n = c.waiting n :=
      waiting_move_of_actor?_ne fun h => by cases h
    exact .inl (hsame.trans hw)
  | enter k =>
    by_cases hk : k = n
    · subst hk
      obtain ⟨op, hop, hfit⟩ := hfits k _ hw
      obtain ⟨rfl, _⟩ := hn.not_superseded hop
      right
      rw [move_enter hw hop, world_put, Operation.active_enter _ hfit]
    · have hsame : (c.move (.enter k)).waiting n = c.waiting n :=
        waiting_move_of_actor?_ne fun h => hk (Option.some.inj h)
      exact .inl (hsame.trans hw)

/-- An operation that holds a panel with an active turn, has its prompt recorded and does not follow
its stream yet, has been issued by a resume: a prompt lets go of the active turn. -/
theorem isResume_of_active {settings : Settings} {studio : Studio} {tasks : Tasks}
    (hop : ((new settings studio tasks).run moves).system.operations[n]? = some op)
    (hn : ((new settings studio tasks).run moves).HeldBy mode n)
    (hearly : ∀ u graphId executionId, op.stage ≠ .following u graphId executionId)
    (hrecorded : ∀ text, ((new settings studio tasks).run moves).waiting n ≠ some (.record text))
    (hopen :
      (((new settings studio tasks).run moves).system.world.studio.panel mode).active ≠ none) :
    (new settings studio tasks).IsResume mode n moves := by
  induction moves using List.reverseRecOn generalizing op with
  | nil => cases hop
  | append_singleton moves x ih =>
    have ht := tokened_run settings studio tasks mode moves
    have hfits := fitting_run settings studio tasks moves
    rw [run_concat] at hop hn hrecorded hopen
    rcases heldBy_move ht hn with ⟨_, hold⟩ | ⟨htaken, hactor⟩
    · refine IsResume.concat ?_ x
      obtain ⟨t, ⟨before, hbefore, hm, htoken⟩, hlive⟩ := hold
      have hold : ((new settings studio tasks).run moves).HeldBy mode n :=
        ⟨t, ⟨before, hbefore, hm, htoken⟩, hlive⟩
      have hearly' := not_following_of_move hn hbefore hop hearly
      refine ih hbefore hold hearly' (fun text hw => ?_) fun hnone => ?_
      · rcases record_move hfits hold hw with hw' | hnone
        · exact hrecorded text hw'
        · exact hopen hnone
      -- only the operation itself could have opened the turn, and it does not follow a stream yet
      · obtain ⟨k, hears, f, rfl, hw, hk, rfl, hs⟩ := hears_of_active hfits hnone hopen
        obtain rfl := (heldBy_of_waiting ht hfits hw hk (fun _ e => by cases e) hs).unique ht hold
        obtain rfl := Option.some.inj (hk.symm.trans hbefore)
        obtain ⟨token, graphId, executionId, hstage⟩ := (hfits.fits hw hk).of_apply
        exact hearly' _ _ _ hstage
    · obtain ⟨k, hactor', _, hwaits⟩ := htaken.heldBy ht
      obtain rfl := Option.some.inj (hactor.symm.trans hactor')
      cases htaken with
      | @sent workflowId text =>
        obtain rfl := Option.some.inj hactor
        exact absurd (if_pos rfl) (hrecorded text)
      | resumed _ hlook hm hs =>
        obtain rfl := Option.some.inj hactor
        exact (hm ▸ isResume_of_lookingUp hlook hs).concat _

/-! ## Panels at rest -/

/-- A panel at rest. When neither an operation nor a stop of a panel is in flight, the panel is idle
exactly if every operation that recorded its prompt or marked the panel after it had been superseded
has been followed by a step that marks the panel as idle. No turn is active exactly if every
operation that was refused while it held the panel with an active turn has been followed by one that
takes the panel over or records its prompt, by a stop, or by a stored conversation. Only a resume
leaves a turn active like that. -/
theorem quiescent_idle_iff (settings : Settings) (studio : Studio) (tasks : Tasks) (mode : Mode)
    (hidle : studio.isStreaming mode = false) (hturn : (studio.panel mode).active = none)
    (moves : List Move) (hq : ((new settings studio tasks).run moves).Quiescent mode) :
    let start := new settings studio tasks
    let c := start.run moves
    (c.system.world.studio.isStreaming mode = false ↔ start.Recovered mode moves) ∧
      ((c.system.world.studio.panel mode).active = none ↔ start.Settled mode moves) ∧
      ∀ before n after, moves = before ++ .enter n :: after →
        (start.run before).LeavesOpen mode (.enter n) → start.IsResume mode n before := by
  intro start c
  obtain ⟨hdone, hstopping⟩ := hq
  have hfree : ¬ c.system.Owned mode := hdone.not_owned
  obtain ⟨hbusy, hlate⟩ := busy_run settings tasks hidle moves
  obtain ⟨hactive, hleft⟩ := active_run settings tasks hturn moves
  refine ⟨⟨fun hflag => ?_, fun h => ?_⟩, ⟨fun hnone => ?_, fun h => ?_⟩, ?_⟩
  · by_contra hopen
    rw [hlate hopen] at hflag
    cases hflag
  · refine Bool.eq_false_iff.mpr fun hflag => ?_
    rcases hbusy hflag with howned | hstop | hopen
    · exact hfree howned
    · exact hstopping hstop
    · exact hopen h
  · by_contra hopen
    exact (hleft hopen).1 hnone
  · by_contra hopen
    rcases hactive hopen with howned | hstop | hleftopen
    · exact hfree howned
    · exact hstopping hstop
    · exact hleftopen h
  · rintro before n after _ ⟨hw, hop, rfl, hs, hopen⟩
    have ht := fun m => tokened_run settings studio tasks m before
    have hfits := fitting_run settings studio tasks before
    have hheld := heldBy_of_waiting (ht _) hfits hw hop (fun _ e => by cases e) hs
    refine isResume_of_active hop hheld (fun u graphId executionId hstage => ?_)
      (fun text hrecord => ?_) hopen
    · have hfit := hfits.fits hw hop
      rw [hstage] at hfit
      cases hfit
    · cases hw.symm.trans hrecord

/-- A prompt is stopped while it waits for the lock, and records its prompt all the same. When all
is over the panel is still busy: the prompt came late, and nothing has marked the panel as idle
since. -/
theorem quiescent_idle_iff_late_prompt :
    let start := new {} {} {}
    let moves : List Move :=
      [.act (.send .workflow none "first"), .act (.abort .workflow), .clear .workflow, .enter 0,
        .act (.arrive 0 (.ticket (.ok ⟨"s1", "e1", "g1"⟩))), .act (.arrive 0 (.opened (.ok ()))),
        .act (.arrive 0 .woken)]
    let c := start.run moves
    ((({} : Studio).isStreaming .workflow = false ∧ (({} : Studio).panel .workflow).active = none) ∧
        c.Quiescent .workflow) ∧
      c.system.operations.map Operation.result? = [some (.ok (some ⟨"g1", "e1", .aborted⟩))] ∧
      (c.system.world.studio.isStreaming .workflow = true ∧ ¬ start.Recovered .workflow moves) ∧
      (c.system.world.studio.panel .workflow).active = none ∧ start.Settled .workflow moves := by
  intro start moves c
  have hq : c.Quiescent .workflow := by
    refine ⟨fun op hop _ => ?_, List.not_mem_nil⟩
    obtain rfl := List.mem_singleton.mp hop
    rfl
  obtain ⟨hidle, hturn, _⟩ := quiescent_idle_iff {} {} {} .workflow rfl rfl moves hq
  refine ⟨⟨⟨rfl, rfl⟩, hq⟩, rfl, ⟨rfl, fun h => ?_⟩, rfl, hturn.mp rfl⟩
  cases hidle.mpr h

end Contention

namespace System

/-- A reply is being streamed when a resume takes the panel over; its stream is refused. Both
operations have finished, and the turn of the first is still active. -/
theorem quiescent_active :
    let found : Execution :=
      { id := "e1", kind := .graphBuilder, status := .running, error := none, graphId := "g1"
        sessionId := "s1", createdAt := default, startedAt := none, completedAt := none
        updatedAt := default }
    let s := (new {} {} {}).run
      [.send .workflow none "first", .arrive 0 (.ticket (.ok ⟨"s1", "e1", "g1"⟩)),
        .arrive 0 (.opened (.ok ())), .arrive 0 (.frame { event := "start", data := "" }),
        .resume .workflow "g1", .arrive 1 (.execution (.ok found)),
        .arrive 1 (.opened (.error (.stream (.unknownExecution "e1")))), .arrive 0 .closed]
    s.operations.map Operation.result? =
        [some (.ok (some ⟨"g1", "e1", .aborted⟩)),
          some (.error (.stream (.unknownExecution "e1")))] ∧
      s.Quiescent .workflow ∧ s.world.studio.isStreaming .workflow = false ∧
      (s.world.studio.panel .workflow).active = some "wf-3" := by
  intro found s
  have hresults : s.operations.map Operation.result? =
      [some (.ok (some ⟨"g1", "e1", .aborted⟩)),
        some (.error (.stream (.unknownExecution "e1")))] := rfl
  refine ⟨hresults, fun op hop _ => ?_, rfl, rfl⟩
  have hmem := List.mem_map_of_mem (f := Operation.result?) hop
  rw [hresults] at hmem
  rcases List.mem_pair.mp hmem with h | h <;> rw [h] <;> rfl

end System

end PromptStudio
