import PromptStudio.Proofs.Chat.Transcript
import PromptStudio.Proofs.Session.Frozen
import PromptStudio.Proofs.Session.Heard
import PromptStudio.Proofs.Session.Shown

/-!
# One reply to each prompt

`Fed` says where the frames of a reply come from: from the stream of its own prompt, or, if the
prompt has been recorded late, from that of a later one. The invariant `Answered` is kept by
actions, by stops and by whoever gets the lock (`Answered.act`, `Answered.clear`, `Answered.enter`);
by induction the transcript of a panel without resumes and stored conversations is the turns of its
prompts (`answered_run`).
-/

namespace PromptStudio

namespace Contention

variable {c start : Contention} {x : Move} {moves : List Move} {mode : Mode} {n k : Nat}
  {op : Operation} {a : Arrival} {part : Section} {f : Frame} {text : String} {t : Token}
  {answers : List Panel.Answer}

/-! ## Who answers -/

/-- The operation `n` holds the panel, and its prompt has been recorded. -/
def Answering (c : Contention) (mode : Mode) (n : Nat) : Prop :=
  c.HeldBy mode n ∧ ∀ text, c.waiting n ≠ some (.record text)

/-- No operation of the panel looks up an execution. -/
def Prompted (c : Contention) (mode : Mode) : Prop :=
  ∀ (n : Nat) (op : Operation), c.system.operations[n]? = some op → op.mode = mode →
    ∀ executionId, op.stage ≠ .lookingUp executionId

theorem prompted_run {settings : Settings} {studio : Studio} {tasks : Tasks}
    (hresume : ∀ workflowId, Move.act (.resume mode workflowId) ∉ moves) :
    ((new settings studio tasks).run moves).Prompted mode := by
  intro n op hop hm executionId hs
  obtain ⟨before, workflowId, after, rfl, _⟩ := isResume_of_lookingUp hop hs
  exact hresume workflowId (hm ▸ List.mem_append_right before List.mem_cons_self)

/-- Where nothing is resumed, only prompts take the panel over. -/
theorem Prompted.sent (h : c.Prompted mode) (hx : c.TakesOver mode x) :
    ∃ workflowId text, x = .act (.send mode workflowId text) := by
  cases hx with
  | sent => exact ⟨_, _, rfl⟩
  | resumed _ hop hm hs => exact absurd hs (h _ _ hop hm _)

/-- So who holds the panel has been issued last. -/
theorem latest_run {settings : Settings} {studio : Studio} {tasks : Tasks}
    (hresume : ∀ workflowId, Move.act (.resume mode workflowId) ∉ moves)
    (hn : ((new settings studio tasks).run moves).system.Holds mode n t)
    (hk : ((new settings studio tasks).run moves).HeldBy mode k) : n ≤ k := by
  induction moves using List.reverseRecOn generalizing t with
  | nil =>
    obtain ⟨op, hop, _⟩ := hn
    cases hop
  | append_singleton moves x ih =>
    have hbefore : ∀ workflowId, Move.act (.resume mode workflowId) ∉ moves := fun id h =>
      hresume id (List.mem_append_left _ h)
    rw [run_concat] at hn hk
    rcases heldBy_move (tokened_run settings studio tasks mode moves) hk with
      ⟨hkept, hold⟩ | ⟨htaken, hactor⟩
    · rcases move_tokens _ mode x with ⟨_, hh⟩ | ⟨htaken, _⟩ | rfl
      · exact ih hbefore (hh n t hn) hold
      · exact absurd htaken hkept
      · exact ih hbefore hn hold
    · obtain ⟨workflowId, text, rfl⟩ := (prompted_run hbefore).sent htaken
      obtain rfl := Option.some.inj hactor
      rcases System.holds_issue hn with hold | ⟨hlast, _⟩
      · exact Nat.le_of_lt hold.lt
      · exact Nat.le_of_eq hlast

theorem Answering.unique (h : c.system.Tokened mode) (hn : c.Answering mode n)
    (hk : c.Answering mode k) : n = k := hn.1.unique h hk.1

theorem answering_act (ht : c.system.Tokened mode) (hfits : c.Fitting) (hp : c.Prompted mode)
    {y : Action} (h : (c.move (.act y)).Answering mode k) : c.Answering mode k := by
  obtain ⟨hheld, hrecorded⟩ := h
  rcases heldBy_move ht hheld with ⟨_, hold⟩ | ⟨htaken, hactor⟩
  · exact ⟨hold, fun text hw => hrecorded text (waiting_act hfits hw y)⟩
  · obtain ⟨workflowId, text, hsent⟩ := hp.sent htaken
    cases hsent
    obtain rfl := Option.some.inj hactor
    exact absurd (if_pos rfl) (hrecorded text)

theorem answering_enter (ht : c.system.Tokened mode) (hw : c.waiting n = some part)
    (hop : c.system.operations[n]? = some op) (h : (c.move (.enter n)).Answering mode k) :
    c.Answering mode k ∨ k = n ∧ ∃ text, part = .record text := by
  obtain ⟨hheld, hrecorded⟩ := h
  have hold := heldBy_enter ht hheld
  by_cases hk : k = n
  · subst hk
    by_cases hpart : ∃ text, part = .record text
    · exact .inr ⟨rfl, hpart⟩
    · refine .inl ⟨hold, fun text hrecord => hpart ⟨text, ?_⟩⟩
      exact Option.some.inj (hw.symm.trans hrecord)
  · refine .inl ⟨hold, fun text hrecord => hrecorded text ?_⟩
    rw [move_enter hw hop, waiting_put, if_neg hk, hrecord]

theorem answering_clear (ht : c.system.Tokened mode) {m : Mode}
    (h : (c.move (.clear m)).Answering mode k) : c.Answering mode k := by
  obtain ⟨hheld, hrecorded⟩ := h
  rcases heldBy_move ht hheld with ⟨_, hold⟩ | ⟨_, hactor⟩
  · rw [waiting_move_of_actor?_ne (by simp [actor?])] at hrecorded
    exact ⟨hold, hrecorded⟩
  · cases hactor

/-! ## Where replies come from -/

/-- When the operation `n` got the lock for its prompt it had been superseded, and `k` held the
panel and had its own prompt recorded. -/
def RecordsBehind (start : Contention) (mode : Mode) (n k : Nat) (moves : List Move) : Prop :=
  ∃ before after text t, moves = before ++ .enter n :: after ∧
    (start.run before).waiting n = some (.record text) ∧
    (start.run before).system.Holds mode n t ∧
    (start.run before).system.world.isCancelled mode t = true ∧
    (start.run before).Answering mode k

/-- The frames of a reply are a beginning of what the stream of one operation has brought: of the
operation that has recorded the prompt, or of a later one behind which the prompt has been
recorded. -/
structure Fed (start : Contention) (mode : Mode) (moves : List Move) (r : Panel.Answer) : Prop where
  begins : r.frames <+: start.received r.source moves
  source : r.source = r.number ∨
    r.number < r.source ∧ start.RecordsBehind mode r.number r.source moves

theorem RecordsBehind.concat (h : start.RecordsBehind mode n k moves) (x : Move) :
    start.RecordsBehind mode n k (moves ++ [x]) := by
  obtain ⟨before, after, text, t, rfl, hrest⟩ := h
  exact ⟨before, after ++ [x], text, t, by simp, hrest⟩

theorem Fed.concat {r : Panel.Answer} (h : start.Fed mode moves r) (x : Move) :
    start.Fed mode (moves ++ [x]) r where
  begins := by
    rw [received_concat]
    exact h.begins.trans (List.prefix_append _ _)
  source := h.source.imp_right fun h => ⟨h.1, h.2.concat x⟩

/-- The transcript is the turns of the prompts recorded, in order, and whoever holds the panel feeds
the last of them. -/
structure Answered (start : Contention) (mode : Mode) (moves : List Move)
    (answers : List Panel.Answer) : Prop where
  panel : ((start.run moves).system.world.studio.panel mode).Answers mode answers
    (fun n => start.heard n moves) ((start.run moves).Answering mode)
  recorded : answers.map (fun r => (r.number, r.text)) = start.recorded mode moves
  fed : ∀ r ∈ answers, start.Fed mode moves r

/-- A move that records no prompt keeps the answers, if the panel still shows them. -/
theorem Answered.concat (h : start.Answered mode moves answers)
    (hrecorded : recordedAt? mode (start.run moves) x = none)
    (hpanel : (((start.run moves).move x).system.world.studio.panel mode).Answers mode answers
      (fun n => start.heard n moves) ((start.run moves).Answering mode))
    (hholds : ∀ k, ((start.run moves).move x).Answering mode k →
      (start.run moves).Answering mode k ∧ heardAt? k (start.run moves) x = none) :
    start.Answered mode (moves ++ [x]) answers where
  panel := by
    rw [run_concat]
    refine hpanel.congr (fun k hk => ?_) fun k hk => (hholds k hk).1
    rw [heard_concat, (hholds k hk).2]
    exact List.append_nil _
  recorded := by
    rw [recorded_concat, hrecorded, h.recorded]
    exact (List.append_nil _).symm
  fed r hr := (h.fed r hr).concat x

theorem Answered.act (h : start.Answered mode moves answers)
    (ht : (start.run moves).system.Tokened mode) (hfits : (start.run moves).Fitting)
    (hp : (start.run moves).Prompted mode) (y : Action) :
    start.Answered mode (moves ++ [.act y]) answers := by
  refine h.concat rfl ?_ fun k hk => ⟨answering_act ht hfits hp hk, rfl⟩
  rw [studio_act]
  exact h.panel

theorem Answered.clear (h : start.Answered mode moves answers)
    (ht : (start.run moves).system.Tokened mode) (m : Mode) :
    start.Answered mode (moves ++ [.clear m]) answers := by
  refine h.concat rfl ?_ fun k hk => ⟨answering_clear ht hk, rfl⟩
  have hmade := made (start.run moves) (.clear m)
  generalize (start.run moves).move (.clear m) = c' at hmade
  cases hmade with
  | idle => exact h.panel
  | cleared =>
    show (((start.run moves).system.world.clear m).studio.panel mode).Answers _ _ _ _
    rw [World.panel_clear]
    split
    · exact h.panel.detach
    · exact h.panel

/-! ## With the lock -/

section Enter

variable (h : start.Answered mode moves answers) (ht : (start.run moves).system.Tokened mode)
  (hw : (start.run moves).waiting n = some part)
  (hop : (start.run moves).system.operations[n]? = some op)

include h ht hw hop

/-- An operation of the other panel leaves the transcript as it is. -/
theorem Answered.enter_other (hm : op.mode ≠ mode) :
    start.Answered mode (moves ++ [.enter n]) answers := by
  refine h.concat ?_ ?_ fun k hk => ?_
  · rw [recordedAt?_enter hw hop, if_neg hm]
  · rw [move_enter hw hop, world_put, (Operation.enter_other fun e => hm e.symm).1]
    exact h.panel
  · rcases answering_enter ht hw hop hk with hold | ⟨rfl, _⟩
    · refine ⟨hold, ?_⟩
      rw [heardAt?_enter hw hop]
      refine if_neg fun hn => hm ?_
      exact ((hn.1 ▸ hold.1).not_superseded hop).1
    · exact absurd ((heldBy_enter ht hk.1).not_superseded hop).1 hm

/-- An operation that neither records its prompt nor applies a frame lets go of the active turn at
most. -/
theorem Answered.enter_quiet (htext : part.text? = none)
    (hframe : op.isSuperseded (start.run moves).system.world = false → part.frame? = none)
    (hpanel : (op.enter (start.run moves).system.world part).1.1.studio.panel mode =
        (start.run moves).system.world.studio.panel mode ∨
      (op.enter (start.run moves).system.world part).1.1.studio.panel mode =
        ((start.run moves).system.world.studio.panel mode).detach) :
    start.Answered mode (moves ++ [.enter n]) answers := by
  refine h.concat ?_ ?_ fun k hk => ⟨?_, ?_⟩
  · rw [recordedAt?_enter hw hop, htext]
    exact ite_self _
  · rw [move_enter hw hop, world_put]
    rcases hpanel with hsame | hdetached
    · rw [hsame]
      exact h.panel
    · rw [hdetached]
      exact h.panel.detach
  · rcases answering_enter ht hw hop hk with hold | ⟨_, text, rfl⟩
    · exact hold
    · cases htext
  · rw [heardAt?_enter hw hop]
    split
    · rename_i hn
      exact hframe hn.2
    · rfl

/-- An operation applies a frame while it holds the panel. -/
theorem Answered.enter_hear {f : Frame} (hpart : part = .apply f) (hm : op.mode = mode)
    (hs : op.isSuperseded (start.run moves).system.world = false)
    (hn : (start.run moves).Answering mode n) (hlistens : start.Listens (moves ++ [.enter n]) n)
    (hcount : (start.received n (moves ++ [.enter n])).countP (·.isStart mode) ≤ 1) :
    ∃ answers', start.Answered mode (moves ++ [.enter n]) answers' := by
  subst hpart hm
  have hself : start.heard n (moves ++ [.enter n]) = start.heard n moves ++ [f] := by
    rw [heard_concat, heardAt?_enter hw hop, if_pos ⟨rfl, hs⟩]
    rfl
  have hheard : (start.heard n moves ++ [f]).countP (·.isStart op.mode) ≤ 1 := by
    rw [← hself]
    exact Nat.le_trans hlistens.begins.sublist.countP_le hcount
  obtain ⟨answers', hpanel, hanswers⟩ :=
    h.panel.hear (fun k => start.heard k (moves ++ [.enter n])) hn (fun j k => Answering.unique ht)
      hheard hself
  have hnext : ((start.run moves).move (.enter n)).system.world.studio.panel op.mode =
      ((start.run moves).system.world.studio.panel op.mode).hear op.mode f := by
    rw [move_enter hw hop, world_put]
    unfold Operation.enter
    simp [hs]
  refine ⟨answers', ?_, ?_, ?_⟩
  · rw [run_concat, hnext]
    refine hpanel.congr (fun _ _ => rfl) fun k hk => ?_
    exact (answering_enter ht hw hop hk).resolve_right fun hk' => by cases hk'.2.choose_spec
  · rw [recorded_concat, recordedAt?_enter hw hop, if_pos rfl, ← h.recorded]
    rcases hanswers with rfl | ⟨before, number, text, rfl, rfl⟩
    · exact (List.append_nil _).symm
    · simp [Section.text?]
  · rcases hanswers with rfl | ⟨before, number, text, rfl, rfl⟩
    · exact fun r hr => (h.fed r hr).concat _
    · intro r hr
      rcases List.mem_append.mp hr with hr | hr
      · exact (h.fed r (List.mem_append_left _ hr)).concat _
      · obtain rfl := List.mem_singleton.mp hr
        have hlast := (h.fed _ (List.mem_append_right _ (List.mem_singleton_self _))).concat
          (.enter n)
        exact ⟨hlistens.begins, hlast.source⟩

/-- A prompt begins a turn of its own. If it is recorded late, and whoever holds the panel has not
begun to be answered, that operation feeds the new turn from now on. -/
theorem Answered.enter_record {text : String} (hpart : part = .record text) (hm : op.mode = mode)
    (htoken : op.token? = some t) (hnew : start.heard n moves = [])
    (hlatest : ∀ k, (start.run moves).HeldBy mode k → n ≤ k)
    (hlistens : ∀ k, start.Listens moves k) :
    ∃ answers', start.Answered mode (moves ++ [.enter n]) answers' := by
  subst hpart hm
  have hnext : ((start.run moves).move (.enter n)).system.world.studio.panel op.mode =
      ((start.run moves).system.world.studio.panel op.mode).ask op.mode text := by
    rw [panel_record hw hop, if_pos rfl]
  have hheard : ∀ k, start.heard k (moves ++ [.enter n]) = start.heard k moves := by
    intro k
    rw [heard_concat, heardAt?_enter hw hop]
    exact (congrArg _ (congrArg Option.toList (ite_self _))).trans (List.append_nil _)
  have hrecorded : start.recorded op.mode (moves ++ [.enter n]) =
      start.recorded op.mode moves ++ [(n, text)] := by
    rw [recorded_concat, recordedAt?_enter hw hop, if_pos rfl]
    rfl
  have hfed : ∀ r : Panel.Answer, start.Fed op.mode (moves ++ [.enter n]) r →
      ∀ r' ∈ answers ++ [r], start.Fed op.mode (moves ++ [.enter n]) r' := by
    intro r hr r' hr'
    rcases List.mem_append.mp hr' with hr' | hr'
    · exact (h.fed r' hr').concat _
    · exact List.mem_singleton.mp hr' ▸ hr
  cases hs : op.isSuperseded (start.run moves).system.world with
  | false =>
    have hn := heldBy_of_not_superseded ht hop htoken hs
    refine ⟨answers ++ [⟨n, text, n, []⟩], ?_, ?_, hfed _ ⟨List.nil_prefix, .inl rfl⟩⟩
    · rw [run_concat, hnext]
      refine Panel.Answers.congr (h.panel.ask text hnew fun k hk => ?_) (fun k _ => hheard k)
        fun _ hk => hk
      exact (heldBy_enter ht hk.1).unique ht hn
    · rw [hrecorded, ← h.recorded]
      simp
  | true =>
    have hc : (start.run moves).system.world.isCancelled op.mode t = true := by
      unfold Operation.isSuperseded at hs
      rw [htoken] at hs
      exact hs
    have hheld : (start.run moves).system.Holds op.mode n t := ⟨op, hop, rfl, htoken⟩
    obtain ⟨r, rfl, rfl, hsource, hpanel⟩ :=
      h.panel.ask_late n text fun j k => Answering.unique ht
    refine ⟨answers ++ [r], ?_, ?_, hfed r ?_⟩
    · rw [run_concat, hnext]
      refine hpanel.congr (fun k _ => hheard k) fun k hk => ?_
      refine (answering_enter ht hw hop hk).resolve_right fun hk' => ?_
      have hlive := ((heldBy_enter ht hk.1).not_superseded (hk'.1 ▸ hop)).2
      rw [hs] at hlive
      cases hlive
    · rw [hrecorded, ← h.recorded]
      simp
    · rcases hsource with ⟨hself, hnone⟩ | ⟨hholds, hframes⟩
      · exact ⟨hnone ▸ List.nil_prefix, .inl hself⟩
      · refine ⟨?_, .inr ⟨?_, moves, [], r.text, t, rfl, hw, hheld, hc, hholds⟩⟩
        · rw [hframes, received_concat]
          exact (hlistens r.source).begins.trans (List.prefix_append _ _)
        · refine Nat.lt_of_le_of_ne (hlatest _ hholds.1) fun e => ?_
          have hlive := (hholds.1.not_superseded (e ▸ hop)).2
          rw [hs] at hlive
          cases hlive

end Enter

/-- Whoever gets the lock keeps the transcript made of the turns of the prompts, unless it replaces
the transcript. -/
theorem Answered.enter (h : start.Answered mode moves answers)
    (ht : ∀ m, (start.run moves).system.Tokened m) (hfits : (start.run moves).Fitting)
    (hunread : (start.run moves).Unread)
    (hlatest : ∀ t k, (start.run moves).system.Holds mode n t → (start.run moves).HeldBy mode k →
      n ≤ k)
    (hlistens : ∀ moves k, start.Listens moves k)
    (hcount : (start.received n (moves ++ [.enter n])).countP (·.isStart mode) ≤ 1) :
    ∃ answers', start.Answered mode (moves ++ [.enter n]) answers' := by
  cases hw : (start.run moves).waiting n with
  | none =>
    have hidle := move_enter_of_none hw
    have hentering : (start.run moves).entering? (.enter n) = none := by simp [entering?, hw]
    refine ⟨answers, h.concat (recordedAt?_of_entering? hentering) ?_ fun k hk => ?_⟩
    · rw [hidle]
      exact h.panel
    · exact ⟨hidle ▸ hk, heardAt?_of_entering? hentering⟩
  | some part =>
    obtain ⟨op, hop, hfit⟩ := hfits n part hw
    by_cases hm : op.mode = mode
    · subst hm
      have hquiet := h.enter_quiet (ht op.mode) hw hop
      cases part with
      | record text =>
        obtain ⟨token, workflowId, hstage⟩ := hfit.of_record
        have htoken : op.token? = some token := by
          unfold Operation.token?
          rw [hstage]
        -- nothing has come for an operation that waits for its ticket
        have hnone : start.received n moves = [] := by
          refine received_of_not_streamed fun op' hop' hstreamed => ?_
          obtain rfl := Option.some.inj (hop.symm.trans hop')
          rcases hstreamed with ⟨_, _, _, hs⟩ | ⟨_, hs⟩ <;> cases hstage.symm.trans hs
        have hnew : start.heard n moves = [] := by
          have hbegins := (hlistens moves n).begins
          rw [hnone] at hbegins
          exact List.prefix_nil.mp hbegins
        exact h.enter_record (ht op.mode) hw hop rfl rfl htoken hnew
          (fun k hk => hlatest token k ⟨op, hop, rfl, htoken⟩ hk) (hlistens moves)
      | mark =>
        exact ⟨answers, hquiet rfl (fun _ => rfl) (.inl (Studio.panel_setStreaming _ _ _ _))⟩
      | refuse e => exact ⟨answers, hquiet rfl (fun _ => rfl) (.inl (World.panel_refuse _ _ _ _))⟩
      | load entries => exact absurd hfit.of_load (hunread op (List.mem_of_getElem? hop))
      | apply f =>
        obtain ⟨token, graphId, executionId, hstage⟩ := hfit.of_apply
        have htoken := Operation.token?_of_following hstage
        cases hs : op.isSuperseded (start.run moves).system.world with
        | true =>
          refine ⟨answers, hquiet rfl (fun hlive => ?_) (.inl ?_)⟩
          · rw [hs] at hlive
            cases hlive
          · unfold Operation.enter
            simp [hs]
        | false =>
          refine h.enter_hear (ht op.mode) hw hop rfl rfl hs ⟨?_, fun text hrecord => ?_⟩
            (hlistens _ n) hcount
          · exact heldBy_of_not_superseded (ht op.mode) hop htoken hs
          · cases hw.symm.trans hrecord
      | settle o =>
        obtain ⟨token, graphId, executionId, hstage⟩ := hfit.of_settle
        refine ⟨answers, hquiet rfl (fun _ => rfl) ?_⟩
        rw [Operation.enter_settle hstage]
        dsimp only
        split
        · exact .inl rfl
        · exact World.panel_settle_or _ _ _
    · exact ⟨answers, h.enter_other (ht mode) hw hop hm⟩

/-! ## Whole runs -/

/-- The transcript of a panel is the turns of its prompts, if nothing is resumed or loaded and no
stream starts twice. -/
theorem answered_run (settings : Settings) (tasks : Tasks)
    (hresume : ∀ workflowId, Move.act (.resume mode workflowId) ∉ moves)
    (hload : ∀ workflowId, Move.act (.load workflowId) ∉ moves)
    (hstart : ∀ n, ((new settings {} tasks).received n moves).countP (·.isStart mode) ≤ 1) :
    ∃ answers, (new settings {} tasks).Answered mode moves answers := by
  induction moves using List.reverseRecOn with
  | nil =>
    refine ⟨[], ⟨?_, ?_, fun n hn => ?_⟩, rfl, fun r hr => by cases hr⟩
    · cases mode <;> rfl
    · cases mode <;> rfl
    · obtain ⟨⟨t, ⟨op, hop, _⟩, _⟩, _⟩ := hn
      cases hop
  | append_singleton moves x ih =>
    have hresume' : ∀ workflowId, Move.act (.resume mode workflowId) ∉ moves := fun id h =>
      hresume id (List.mem_append_left _ h)
    have hload' : ∀ workflowId, Move.act (.load workflowId) ∉ moves := fun id h =>
      hload id (List.mem_append_left _ h)
    obtain ⟨answers, h⟩ := ih hresume' hload' fun n => by
      refine Nat.le_trans (List.Sublist.countP_le ?_) (hstart n)
      rw [received_concat]
      exact List.sublist_append_left _ _
    have htokens := fun m => tokened_run settings {} tasks m moves
    have hfits := fitting_run settings {} tasks moves
    cases x with
    | act y => exact ⟨answers, h.act (htokens mode) hfits (prompted_run hresume') y⟩
    | clear m => exact ⟨answers, h.clear (htokens mode) m⟩
    | enter n =>
      exact h.enter htokens hfits ((unread_new settings {} tasks).run hload')
        (fun t k => latest_run hresume') (listens_run settings {} tasks) (hstart n)

/-- One reply to each prompt, fed by one stream. When prompts are sent and stopped in a new studio,
and everything comes in any order, the transcript is the turns of the prompts one after the other in
the order in which they have been recorded. Each turn is made of a beginning of what one stream has
brought: the stream of the prompt itself, unless the prompt was recorded when its operation had been
superseded, behind the prompt of a later operation that held the panel; then it may be the stream of
that one. -/
theorem one_reply_per_prompt (settings : Settings) (tasks : Tasks) (mode : Mode)
    (moves : List Move) (hresume : ∀ workflowId, Move.act (.resume mode workflowId) ∉ moves)
    (hload : ∀ workflowId, Move.act (.load workflowId) ∉ moves)
    (hstart : ∀ n, ((new settings {} tasks).received n moves).countP (·.isStart mode) ≤ 1) :
    let start := new settings {} tasks
    ∃ answers : List Panel.Answer,
      answers.map (fun r => (r.number, r.text)) = start.recorded mode moves ∧
        (∃ turns : List (List Entry),
          ((start.run moves).system.world.studio.panel mode).entries = turns.flatten ∧
            List.Forall₂ (fun r es => Panel.TurnOf mode r.text r.frames es) answers turns) ∧
        ∀ r ∈ answers, start.Fed mode moves r := by
  intro start
  obtain ⟨answers, h⟩ := answered_run settings tasks hresume hload hstart
  refine ⟨answers, h.recorded, h.panel.turns fun r hr => ?_, h.fed⟩
  exact Nat.le_trans (h.fed r hr).begins.sublist.countP_le (hstart r.source)

/-- Two prompts are sent before either gets the lock, and the second gets it first. The first one,
superseded by then, is recorded behind it, and its reply is what the stream of the second brings;
nothing has come for the first. -/
theorem reply_of_another_prompt :
    let start := new {} {} {}
    let moves : List Move :=
      [.act (.send .webCreator (some "g1") "first"), .act (.send .webCreator (some "g1") "second"),
        .enter 1, .enter 0, .act (.arrive 1 (.ticket (.ok ⟨"s1", "e1", "g1"⟩))),
        .act (.arrive 1 (.opened (.ok ()))),
        .act (.arrive 1 (.frame { event := "start", data := "\x7b\"taskId\": \"t\"\x7d" })),
        .enter 1,
        .act (.arrive 1 (.frame { event := "delta", data := "\x7b\"content\": \"hi\"\x7d" })),
        .enter 1]
    start.recorded .webCreator moves = [(1, "second"), (0, "first")] ∧
      start.received 0 moves = [] ∧
      (start.received 1 moves).map Frame.event = ["start", "delta"] ∧
      ((start.run moves).system.world.studio.panel .webCreator).entries.map
          (fun e => (e.role, e.text)) =
        [(.user, "second"), (.user, "first"), (.assistant, "hi")] := by
  intro start moves
  refine ⟨?_, ?_, ?_, ?_⟩ <;> decide +kernel

/-- The second of two prompts comes while the first is being answered. The end of the first stream
comes late and is not heard; the second prompt is refused its ticket. -/
theorem one_reply_per_prompt_late_end :
    let start := new {} {} {}
    let moves : List Move :=
      [.act (.send .webCreator (some "g1") "first"), .enter 0,
        .act (.arrive 0 (.ticket (.ok ⟨"s1", "e1", "g1"⟩))), .act (.arrive 0 (.opened (.ok ()))),
        .act (.arrive 0 (.frame { event := "start", data := "\x7b\"taskId\": \"t\"\x7d" })),
        .enter 0,
        .act (.arrive 0 (.frame { event := "delta", data := "\x7b\"content\": \"hi\"\x7d" })),
        .enter 0,
        .act (.send .webCreator (some "g1") "second"),
        .act (.arrive 0 (.frame { event := "done", data := "" })), .enter 1,
        .act (.arrive 1 (.ticket (.error (.api 500 "busy")))), .enter 1]
    ((∀ workflowId, Move.act (.resume .webCreator workflowId) ∉ moves) ∧
        (∀ workflowId, Move.act (.load workflowId) ∉ moves) ∧
        ∀ n, (start.received n moves).countP (·.isStart .webCreator) ≤ 1) ∧
      (start.received 0 moves).map Frame.event = ["start", "delta", "done"] ∧
      ((start.run moves).system.world.studio.panel .webCreator).entries.map
          (fun e => (e.role, e.text)) =
        [(.user, "first"), (.assistant, "hi"), (.user, "second")] ∧
      ∃ answers : List Panel.Answer,
        answers.map (fun r => (r.number, r.text)) = [(0, "first"), (1, "second")] ∧
          (∃ turns : List (List Entry),
            ((start.run moves).system.world.studio.panel .webCreator).entries = turns.flatten ∧
              List.Forall₂ (fun r es => Panel.TurnOf .webCreator r.text r.frames es)
                answers turns) ∧
          ∀ r ∈ answers, start.Fed .webCreator moves r := by
  intro start moves
  have hresume : ∀ workflowId, Move.act (.resume .webCreator workflowId) ∉ moves := by
    intro workflowId h
    simp [moves] at h
  have hload : ∀ workflowId, Move.act (.load workflowId) ∉ moves := by
    intro workflowId h
    simp [moves] at h
  have hstart : ∀ n, (start.received n moves).countP (·.isStart .webCreator) ≤ 1 := by
    intro n
    have hlength : (start.run moves).system.operations.length ≤ 2 := by decide +kernel
    match n with
    | 0 => decide +kernel
    | 1 => decide +kernel
    | n + 2 =>
      rw [received_of_length_le (Nat.le_trans hlength (Nat.le_add_left 2 n))]
      exact Nat.zero_le 1
  have hrecorded : start.recorded .webCreator moves = [(0, "first"), (1, "second")] := by
    decide +kernel
  obtain ⟨answers, hnumbers, hturns⟩ :=
    one_reply_per_prompt {} {} .webCreator moves hresume hload hstart
  refine ⟨⟨hresume, hload, hstart⟩, ?_, ?_, answers, hnumbers.trans hrecorded, hturns⟩
  · decide +kernel
  · decide +kernel

end Contention

end PromptStudio
