import PromptStudio.Proofs.Session.Holders

/-!
# Older prompts and replies

`keeps_move` says that a move keeps what a panel keeps, unless it asks for a stored conversation.
From it, by induction on the run, an entry that was there when a prompt was recorded stays as it is,
whatever the operations of before and after the prompt still do (`keeps_run`). It does not matter to
this which operation holds the panel: what protects the entries is that a prompt lets go of the
active turn. For the same reason a prompt is recorded late at a price: an operation that has been
superseded while it waited for the lock lets go of the turn of its successor
(`superseded_prompt_recorded`).
-/

namespace PromptStudio

namespace Operation

variable {w : World} {op : Operation} {a : Arrival} {part : Section} {mode : Mode}
  {pre : List Entry}

/-- The operation waits for a stored conversation. -/
def AwaitsHistory (op : Operation) : Prop := ∃ workflowId, op.stage = .loading workflowId

theorem awaitsHistory_reach (h : (op.reach w a).1.2.AwaitsHistory) : op.AwaitsHistory := by
  have hreach := reach_cases w op a
  generalize op.reach w a = r at hreach h
  obtain ⟨workflowId, hs⟩ := h
  cases hreach with
  | ignored | refused | loaded | heard | lost => exact ⟨workflowId, hs⟩
  | ticketed | resumed | dismissed | opened | unloaded | noticed => cases hs

theorem awaitsHistory_enter (h : (op.enter w part).1.2.AwaitsHistory) : op.AwaitsHistory := by
  have hentered := enter_cases w op part
  generalize op.enter w part = r at hentered h
  cases hentered with
  | recorded | marked | dropped | applied | misplaced => exact h
  | refused | loaded | noticed | settled =>
    obtain ⟨_, hs⟩ := h
    cases hs

/-- Whoever has the lock keeps what a panel keeps, unless it replaces the transcript. -/
theorem keeps_enter (hpart : ∀ entries, part ≠ .load entries)
    (h : (w.studio.panel mode).Keeps pre) :
    ((op.enter w part).1.1.studio.panel mode).Keeps pre := by
  have hentered := enter_cases w op part
  generalize op.enter w part = r at hentered
  cases hentered with
  | dropped | noticed | misplaced => exact h
  | loaded => exact absurd rfl (hpart _)
  | recorded =>
    rw [World.studio_onStudio, World.panel_recordPrompt]
    by_cases hm : mode = op.mode
    · rw [if_pos hm]
      exact (hm ▸ h).ask op.mode _
    · rwa [if_neg hm]
  | marked => rwa [World.studio_onStudio, Studio.panel_setStreaming]
  | refused => rwa [World.panel_refuse]
  | applied =>
    rw [World.studio_onStudio, World.panel_applyFrame]
    by_cases hm : mode = op.mode
    · rw [if_pos hm]
      exact (hm ▸ h).hear op.mode _
    · rwa [if_neg hm]
  | settled =>
    rw [World.panel_settle]
    split
    · exact h.detach
    · exact h

/-- Once its token has been cancelled, an operation leaves the panels as they are unless it still
has its prompt to record. -/
theorem panel_enter_of_superseded {t : Token} (ht : op.token? = some t)
    (hc : w.isCancelled op.mode t = true) (hfits : part.Fits op.stage)
    (hpart : ∀ text, part ≠ .record text) (m : Mode) :
    (op.enter w part).1.1.studio.panel m = w.studio.panel m := by
  have hsuperseded : op.isSuperseded w = true := by
    unfold isSuperseded
    rw [ht]
    exact hc
  have hentered := enter_cases w op part
  generalize op.enter w part = r at hentered
  cases hentered with
  | recorded => exact absurd rfl (hpart _)
  | marked => exact Studio.panel_setStreaming _ _ _ _
  | refused => exact World.panel_refuse _ _ _ _
  | loaded =>
    obtain ⟨_, hs⟩ := hfits.of_load
    unfold token? at ht
    rw [hs] at ht
    cases ht
  | dropped | noticed | misplaced => rfl
  | applied hs | settled _ hs => cases hs.symm.trans hsuperseded

end Operation

namespace Contention

variable {c : Contention} {x : Move} {moves : List Move} {mode : Mode} {pre : List Entry} {n : Nat}
  {op : Operation} {text : String}

/-- No operation waits for a stored conversation. -/
def Unread (c : Contention) : Prop := ∀ op ∈ c.system.operations, ¬ op.AwaitsHistory

theorem Unread.issue (h : c.Unread) {r : World × Operation} (hr : ¬ r.2.AwaitsHistory) :
    ∀ op ∈ (c.system.issue r).operations, ¬ op.AwaitsHistory := by
  intro op hop
  rcases List.mem_append.mp hop with hop | hop
  · exact h op hop
  · rw [List.mem_singleton.mp hop]
    exact hr

theorem Unread.put (h : c.Unread) (hop : c.system.operations[n]? = some op)
    {r : (World × Operation) × Option Section}
    (hr : r.1.2.AwaitsHistory → op.AwaitsHistory) : (c.put n r).Unread := by
  intro op' hop'
  rcases List.mem_or_eq_of_mem_set hop' with hop' | rfl
  · exact h op' hop'
  · exact fun hl => h op (List.mem_of_getElem? hop) (hr hl)

theorem Unread.move (h : c.Unread) (hx : ∀ workflowId, x ≠ .act (.load workflowId)) :
    (c.move x).Unread := by
  have hmade := made c x
  generalize c.move x = c' at hmade
  cases hmade with
  | idle | stopped | cleared => exact h
  | sent =>
    refine h.issue ?_
    rintro ⟨_, hs⟩
    cases hs
  | resumed =>
    refine h.issue ?_
    rintro ⟨_, hs⟩
    unfold World.resume at hs
    split at hs <;> cases hs
  | @loaded workflowId => exact absurd rfl (hx workflowId)
  | reached _ hop => exact h.put hop Operation.awaitsHistory_reach
  | entered _ hop => exact h.put hop Operation.awaitsHistory_enter

theorem keeps_move (hfits : c.Fitting) (h : c.Unread)
    (hk : (c.system.world.studio.panel mode).Keeps pre) :
    ((c.move x).system.world.studio.panel mode).Keeps pre := by
  cases x with
  | act y => rwa [studio_act]
  | enter n =>
    have hmade := made c (.enter n)
    generalize c.move (.enter n) = c' at hmade
    cases hmade with
    | idle => exact hk
    | @entered _ op part hw hop =>
      refine Operation.keeps_enter (fun entries e => ?_) hk
      exact h op (List.mem_of_getElem? hop) (e ▸ hfits.fits hw hop).of_load
  | clear m =>
    have hmade := made c (.clear m)
    generalize c.move (.clear m) = c' at hmade
    cases hmade with
    | idle => exact hk
    | cleared =>
      show ((c.system.world.clear m).studio.panel mode).Keeps pre
      rw [World.panel_clear]
      split
      · exact hk.detach
      · exact hk

theorem unread_new (settings : Settings) (studio : Studio) (tasks : Tasks) :
    (new settings studio tasks).Unread := by
  intro op hop
  cases hop

theorem Unread.run (h : c.Unread) (hload : ∀ workflowId, Move.act (.load workflowId) ∉ moves) :
    (c.run moves).Unread :=
  run_induction (P := Unread) (fun _ _ hx hc => hc.move fun id e => hload id (e ▸ hx)) h

/-- A run keeps what a panel keeps. -/
theorem keeps_run (hfits : c.Fitting) (h : c.Unread)
    (hload : ∀ workflowId, Move.act (.load workflowId) ∉ moves)
    (hk : (c.system.world.studio.panel mode).Keeps pre) :
    ((c.run moves).system.world.studio.panel mode).Keeps pre := by
  let P (c : Contention) : Prop :=
    c.Fitting ∧ c.Unread ∧ (c.system.world.studio.panel mode).Keeps pre
  have hmove : ∀ c, ∀ x ∈ moves, P c → P (c.move x) := by
    intro c x hx hc
    have hne : ∀ id, x ≠ .act (.load id) := fun id e => hload id (e ▸ hx)
    exact ⟨hc.1.move x, hc.2.1.move hne, keeps_move hc.1 hc.2.1 hc.2.2⟩
  have hend : P (c.run moves) := run_induction hmove ⟨hfits, h, hk⟩
  exact hend.2.2

/-! ## Prompts that are recorded -/

/-- An operation that gets the lock for its prompt asks its panel. -/
theorem panel_record (hw : c.waiting n = some (.record text))
    (hop : c.system.operations[n]? = some op) (m : Mode) :
    (c.move (.enter n)).system.world.studio.panel m =
      if m = op.mode then (c.system.world.studio.panel op.mode).ask op.mode text
      else c.system.world.studio.panel m := by
  rw [move_enter hw hop]
  exact World.panel_recordPrompt op.mode m c.system.world.studio text

/-- A move of an operation whose token has been cancelled leaves the panels as they are, unless the
operation has its prompt to record. -/
theorem panel_move_of_superseded {t : Token} (hfits : c.Fitting)
    (hop : c.system.operations[n]? = some op) (ht : op.token? = some t)
    (hc : c.system.world.isCancelled op.mode t = true) (hactor : c.actor? x = some n)
    (hrecord : ∀ text, ¬ (x = .enter n ∧ c.waiting n = some (.record text))) (m : Mode) :
    (c.move x).system.world.studio.panel m = c.system.world.studio.panel m := by
  cases x with
  | act y => rw [studio_act]
  | clear m => cases hactor
  | enter k =>
    obtain rfl : k = n := Option.some.inj hactor
    cases hw : c.waiting k with
    | none => rw [move_enter_of_none hw]
    | some part =>
      rw [move_enter hw hop]
      exact Operation.panel_enter_of_superseded ht hc (hfits.fits hw hop)
        (fun text e => hrecord text ⟨rfl, e ▸ hw⟩) m

/-- Older prompts and replies are frozen. Once a prompt has been recorded, it and all entries before
it stay as they are to the end of the run, if no stored conversation is asked for. A move of an
operation whose token has been cancelled leaves both panels as they are, unless the operation has
its prompt to record: then its panel lets go of the active turn and shows the prompt. And no two
tokens of a panel are live. -/
theorem older_entries_frozen (settings : Settings) (studio : Studio) (tasks : Tasks)
    (moves : List Move) (hload : ∀ workflowId, Move.act (.load workflowId) ∉ moves) (mode : Mode) :
    let start := new settings studio tasks
    let c := start.run moves
    (∀ before n text op after, moves = before ++ .enter n :: after →
      (start.run before).waiting n = some (.record text) →
      (start.run before).system.operations[n]? = some op → op.mode = mode →
      ((start.run before).system.world.studio.panel mode).entries ++
          [((start.run before).system.world.studio.panel mode).nextPrompt text] <+:
        (c.system.world.studio.panel mode).entries) ∧
    (∀ x n op t, c.actor? x = some n → c.system.operations[n]? = some op → op.token? = some t →
      c.system.world.isCancelled op.mode t = true →
      ((∀ m, (c.move x).system.world.studio.panel m = c.system.world.studio.panel m) ↔
          ∀ text, ¬ (x = .enter n ∧ c.waiting n = some (.record text))) ∧
        ∀ text, x = .enter n → c.waiting n = some (.record text) →
          (c.move x).system.world.studio.panel op.mode =
            (c.system.world.studio.panel op.mode).ask op.mode text) ∧
    (∀ t u, (c.system.world.control mode).Live t → (c.system.world.control mode).Live u →
      t = u) := by
  intro start c
  refine ⟨?_, ?_, ?_⟩
  · intro before n text op after hsplit hw hop hm
    subst hm
    have hbefore : ∀ id, Move.act (.load id) ∉ before := fun id h =>
      hload id (hsplit ▸ List.mem_append_left _ h)
    have hafter : ∀ id, Move.act (.load id) ∉ after := fun id h =>
      hload id (hsplit ▸ List.mem_append_right _ (List.mem_cons_of_mem _ h))
    have hrun : c = ((start.run before).move (.enter n)).run after := by
      show start.run moves = _
      rw [hsplit, run_append, run_cons]
    have hkeeps : (((start.run before).move (.enter n)).system.world.studio.panel op.mode).Keeps
        (((start.run before).system.world.studio.panel op.mode).entries ++
          [((start.run before).system.world.studio.panel op.mode).nextPrompt text]) := by
      rw [panel_record hw hop, if_pos rfl]
      exact Panel.keeps_ask _ op.mode text
    have hunread : ((start.run before).move (.enter n)).Unread :=
      ((unread_new settings studio tasks).run hbefore).move fun _ e => by cases e
    rw [hrun]
    exact (keeps_run ((fitting_run settings studio tasks before).move _) hunread hafter
      hkeeps).starts
  · intro x n op t hactor hop ht hc
    have hrecorded : ∀ text, x = .enter n → c.waiting n = some (.record text) →
        (c.move x).system.world.studio.panel op.mode =
          (c.system.world.studio.panel op.mode).ask op.mode text := by
      rintro text rfl hw
      rw [panel_record hw hop, if_pos rfl]
    refine ⟨⟨?_, ?_⟩, hrecorded⟩
    · rintro hsame text ⟨hx, hw⟩
      have hlonger := (Panel.keeps_ask (c.system.world.studio.panel op.mode) op.mode text).starts
      rw [← hrecorded text hx hw, hsame op.mode] at hlonger
      have hlength := hlonger.length_le
      rw [List.length_append, List.length_singleton] at hlength
      omega
    · exact panel_move_of_superseded (fitting_run settings studio tasks moves) hop ht hc hactor
  · exact fun t u => (tokened_run settings studio tasks mode moves).sound.unique

/-- A reply is being streamed when two more prompts are sent, and both wait for the lock. The second
has been superseded by the third when it gets the lock; it lets go of the active turn and records
its prompt all the same. -/
theorem superseded_prompt_recorded :
    let c := (new {} {} {}).run
      [.act (.send .webCreator (some "g1") "first"), .enter 0,
        .act (.arrive 0 (.ticket (.ok ⟨"s1", "e1", "g1"⟩))), .act (.arrive 0 (.opened (.ok ()))),
        .act (.arrive 0 (.frame { event := "start", data := "\x7b\"taskId\": \"t\"\x7d" })),
        .enter 0,
        .act (.send .webCreator (some "g1") "second"), .act (.send .webCreator (some "g1") "third")]
    let late := c.move (.enter 1)
    let shown := fun (c : Contention) => c.system.world.studio.panel .webCreator
    (c.system.Holds .webCreator 1 1 ∧ c.system.world.isCancelled .webCreator 1 = true) ∧
      (shown c).entries.map Entry.role = [.user, .assistant] ∧
      (shown c).active = some "wc-3" ∧
      (shown late).entries.map Entry.role = [.user, .assistant, .user] ∧
      (shown late).active = none := by
  refine ⟨⟨⟨_, rfl, rfl, rfl⟩, rfl⟩, ?_, ?_, ?_, ?_⟩ <;> decide +kernel

/-- A second prompt comes while the first is being answered; the end of the first answer comes late,
and the second prompt is recorded later still. -/
theorem older_entries_frozen_late_end :
    let answered : List Move :=
      [.act (.send .workflow none "first"), .enter 0,
        .act (.arrive 0 (.ticket (.ok ⟨"session", "execution", "graph"⟩))),
        .act (.arrive 0 (.opened (.ok ()))),
        .act (.arrive 0 (.frame { event := "start", data := "" })), .enter 0,
        .act (.send .workflow none "second"),
        .act (.arrive 0 (.frame { event := "done", data := "" }))]
    let late : List Move := answered ++ [.enter 1, .enter 0]
    let before := ((new {} {} {}).run answered).system.world.studio.panel .workflow
    (∀ workflowId, Move.act (.load workflowId) ∉ late) ∧
      before.entries.map Entry.role = [.user, .assistant] ∧
      before.entries ++ [before.nextPrompt "second"] <+:
        (((new {} {} {}).run late).system.world.studio.panel .workflow).entries ∧
      (((new {} {} {}).run late).system.world.studio.panel .workflow).entries.map Entry.role =
        [.user, .assistant, .user, .assistant] := by
  intro answered late before
  have hload : ∀ workflowId, Move.act (.load workflowId) ∉ late := by
    intro workflowId h
    simp [late, answered] at h
  refine ⟨hload, by decide +kernel, ?_, by decide +kernel⟩
  exact (older_entries_frozen {} {} {} late hload .workflow).1 answered 1 "second" _ [.enter 0] rfl
    rfl rfl rfl

end Contention

end PromptStudio
