import PromptStudio.Proofs.Session.Shown

/-!
# Operations that are overtaken

A prompt takes its panel over when it is sent, so it can only supersede what has been there. A
resume takes the panel over when its lookup is answered, whatever has been sent or stopped since it
was issued (`Reattaches`). Both show their panel as busy only when they get the lock, and that may
be after a stop; `reattaches_of_heldBy` and `reattaches_of_mark` say who can still do so that has
been issued before the stop.
-/

namespace PromptStudio

namespace Operation

variable {w : World} {op : Operation} {a : Arrival}

/-- Only an operation that is being issued comes to wait with its prompt. -/
theorem reach_ne_record (w : World) (op : Operation) (a : Arrival) (text : String) :
    (op.reach w a).2 ≠ some (.record text) := by
  have h := reach_cases w op a
  generalize op.reach w a = r at h
  cases h <;> simp

/-- Only an operation whose execution can be followed again comes to wait to mark its panel. -/
theorem of_reach_mark (h : (op.reach w a).2 = some .mark) :
    ∃ executionId x, op.stage = .lookingUp executionId ∧ a = .execution (.ok x) ∧
      x.status.isResumable = true := by
  have hreach := reach_cases w op a
  generalize op.reach w a = r at h hreach
  cases hreach with
  | resumed hs ha hx => exact ⟨_, _, hs, ha, hx⟩
  | refused | loaded | heard | lost => cases Option.some.inj h
  | ignored | ticketed | dismissed | opened | unloaded | noticed => cases h

end Operation

namespace Contention

variable {c : Contention} {x : Move} {moves : List Move} {n k : Nat} {op : Operation} {a : Arrival}
  {mode : Mode} {t : Token} {text : String}

/-- The lookup of the operation `n` of the panel is answered, and its execution can be followed
again. -/
inductive Reattaches (c : Contention) (mode : Mode) (n : Nat) : Move → Prop
  | intro {op : Operation} {executionId : String} {x : Execution} (hw : c.waiting n = none)
      (hop : c.system.operations[n]? = some op) (hm : op.mode = mode)
      (hs : op.stage = .lookingUp executionId) (hx : x.status.isResumable = true) :
      Reattaches c mode n (.act (.arrive n (.execution (.ok x))))

theorem Reattaches.takesOver (h : c.Reattaches mode n x) : c.TakesOver mode x := by
  cases h with
  | intro hw hop hm hs hx => exact .resumed hw hop hm hs hx

/-- An operation that reattaches holds its panel, and waits to mark it. -/
theorem Reattaches.heldBy (h : c.Reattaches mode n x) (ht : c.system.Tokened mode) :
    (c.move x).HeldBy mode n ∧ (c.move x).waiting n = some .mark := by
  obtain ⟨k, hactor, hheld, hw⟩ := h.takesOver.heldBy ht
  cases h with
  | intro hnone hop =>
    obtain rfl := Option.some.inj hactor
    refine ⟨hheld, hw.resolve_right ?_⟩
    rintro ⟨text, hrecord⟩
    rw [act_arrive hnone hop, waiting_put, if_pos rfl] at hrecord
    exact Operation.reach_ne_record _ _ _ _ hrecord

/-- An operation that was there before takes its panel over only by reattaching. -/
theorem TakesOver.reattaches (h : c.TakesOver mode x) (hactor : c.actor? x = some n)
    (hn : n < c.system.operations.length) : c.Reattaches mode n x := by
  cases h with
  | sent =>
    obtain rfl := Option.some.inj hactor
    exact absurd hn (Nat.lt_irrefl _)
  | resumed hw hop hm hs hx =>
    obtain rfl := Option.some.inj hactor
    exact .intro hw hop hm hs hx

/-- A live token is cancelled exactly by a stop of its panel and by whoever takes the panel over. -/
theorem not_live_move_iff (h : c.system.Tokened mode) (hheld : c.system.Holds mode k t)
    (hlive : (c.system.world.control mode).Live t) :
    ¬ ((c.move x).system.world.control mode).Live t ↔
      x = .act (.abort mode) ∨ c.TakesOver mode x := by
  constructor
  · intro hdead
    rcases move_tokens c mode x with ⟨hc, _⟩ | ⟨hx, _⟩ | rfl
    · rw [hc] at hdead
      exact absurd hlive hdead
    · exact .inr hx
    · exact .inl rfl
  · rintro (rfl | hx)
    · exact not_live_act_abort h.sound
    · rw [hx.control, Control.live_renew h.sound]
      exact Nat.ne_of_lt (h.held_lt k t hheld)

/-! ## After a stop -/

/-- An operation that was there when nobody held the panel holds it later only if it has reattached
since. -/
theorem reattaches_of_heldBy (h : c.system.Tokened mode) (hn : n < c.system.operations.length)
    (hfree : ∀ t, ¬ (c.system.world.control mode).Live t) (hheld : (c.run moves).HeldBy mode n) :
    ∃ before answer after, moves = before ++ .act (.arrive n answer) :: after ∧
      (c.run before).Reattaches mode n (.act (.arrive n answer)) := by
  induction moves using List.reverseRecOn with
  | nil =>
    obtain ⟨t, _, hlive⟩ := hheld
    exact absurd hlive (hfree t)
  | append_singleton moves x ih =>
    rw [run_concat] at hheld
    rcases heldBy_move (tokened_of_run h moves) hheld with ⟨_, hold⟩ | ⟨hx, hactor⟩
    · obtain ⟨before, answer, after, rfl, hanswer⟩ := ih hold
      exact ⟨before, answer, after ++ [x], by simp, hanswer⟩
    · have hx' := hx.reattaches hactor (Nat.lt_of_lt_of_le hn (length_le_run c moves))
      have hmove := hx'
      cases hmove with
      | intro => exact ⟨moves, _, [], rfl, hx'⟩

/-- An operation that waits to mark its panel has waited for it before, or has reattached since. -/
theorem reattaches_of_mark (hn : n < c.system.operations.length)
    (hw : (c.run moves).waiting n = some .mark)
    (hop : (c.run moves).system.operations[n]? = some op) :
    c.waiting n = some .mark ∨
      ∃ before answer after, moves = before ++ .act (.arrive n answer) :: after ∧
        (c.run before).Reattaches op.mode n (.act (.arrive n answer)) := by
  induction moves using List.reverseRecOn generalizing op with
  | nil => exact .inl hw
  | append_singleton moves x ih =>
    have hlt := Nat.lt_of_lt_of_le hn (length_le_run c moves)
    have hbefore := List.getElem?_eq_getElem hlt
    obtain ⟨op', hop', hm⟩ := mode_move x hbefore
    rw [run_concat] at hw hop
    obtain rfl := Option.some.inj (hop'.symm.trans hop)
    rcases waiting_move hw with
      hold | ⟨hlast, _⟩ | ⟨a, before, rfl, hnone, hop'', hreach⟩ | ⟨part, before, rfl, _, _, hmark⟩
    · refine (ih hold hbefore).imp_right ?_
      rintro ⟨before, answer, after, rfl, hanswer⟩
      exact ⟨before, answer, after ++ [x], by simp, hm ▸ hanswer⟩
    · exact absurd hlast (Nat.ne_of_lt hlt)
    · obtain ⟨executionId, found, hs, rfl, hx⟩ := Operation.of_reach_mark hreach
      obtain rfl := Option.some.inj (hop''.symm.trans hbefore)
      exact .inr ⟨moves, _, [], rfl, .intro hnone hop'' hm.symm hs hx⟩
    · obtain ⟨_, _, _, _, hnext⟩ := Operation.enter_next hmark
      cases hnext

/-- An operation that waits with its prompt has waited since it was issued. -/
theorem record_of_run (hn : n < c.system.operations.length)
    (hw : (c.run moves).waiting n = some (.record text)) : c.waiting n = some (.record text) := by
  induction moves using List.reverseRecOn with
  | nil => exact hw
  | append_singleton moves x ih =>
    rw [run_concat] at hw
    rcases waiting_move hw with
      hold | ⟨hlast, _⟩ | ⟨a, op, _, _, _, hreach⟩ | ⟨part, op, _, _, _, henter⟩
    · exact ih hold
    · exact absurd hlast (Nat.ne_of_lt (Nat.lt_of_lt_of_le hn (length_le_run c moves)))
    · exact absurd hreach (Operation.reach_ne_record _ _ _ _)
    · obtain ⟨_, _, _, _, hnext⟩ := Operation.enter_next henter
      cases hnext

/-- An execution that an operation looks up has been looked up since the operation was there. -/
theorem Reattaches.lookingUp (hn : n < c.system.operations.length)
    (h : (c.run moves).Reattaches mode n x) :
    ∃ op executionId, c.system.operations[n]? = some op ∧ op.mode = mode ∧
      op.stage = .lookingUp executionId := by
  cases h with
  | @intro op executionId _ _ hop hm hs _ =>
    exact ⟨op, executionId, lookingUp_of_run hn hop hs, hm, hs⟩

/-- When nobody holds a panel, an operation that is there makes it busy again only if it waits
for the lock to record its prompt or to mark the panel, or if it looks up its execution and
reattaches later. -/
theorem waits_or_reattaches_of_busy (h : c.system.Tokened mode) (hfits : c.Fitting)
    (hfree : ∀ t, ¬ (c.system.world.control mode).Live t) (hn : n < c.system.operations.length)
    (hactor : (c.run moves).actor? x = some n)
    (hidle : (c.run moves).system.world.studio.isStreaming mode = false)
    (hbusy : ((c.run moves).move x).system.world.studio.isStreaming mode = true) :
    x = .enter n ∧ (c.waiting n = some .mark ∨ ∃ text, c.waiting n = some (.record text)) ∨
      (∃ op executionId, c.system.operations[n]? = some op ∧ op.mode = mode ∧
        op.stage = .lookingUp executionId) ∧
      ∃ waiting answer rest, moves = waiting ++ .act (.arrive n answer) :: rest ∧
        (c.run waiting).Reattaches mode n (.act (.arrive n answer)) := by
  have hfits' : (c.run moves).Fitting :=
    run_induction (P := Fitting) (fun _ y _ h => h.move y) hfits
  obtain ⟨k, op, part, rfl, hw, hop, rfl, hpart⟩ := busy_move hfits' hidle hbusy
  obtain rfl : k = n := Option.some.inj hactor
  rcases hpart with ⟨text, rfl⟩ | rfl | ⟨f, rfl, hs⟩
  · exact .inl ⟨rfl, .inr ⟨text, record_of_run hn hw⟩⟩
  · rcases reattaches_of_mark hn hw hop with hmark | ⟨waiting, answer, rest, hsplit, hx⟩
    · exact .inl ⟨rfl, .inl hmark⟩
    · exact .inr ⟨hx.lookingUp hn, waiting, answer, rest, hsplit, hx⟩
  · -- an event shows the panel as busy only for the operation that holds it
    obtain ⟨token, graphId, executionId, hstage⟩ := (hfits'.fits hw hop).of_apply
    have hheld := heldBy_of_not_superseded (tokened_of_run h moves) hop
      (Operation.token?_of_following hstage) hs
    obtain ⟨waiting, answer, rest, hsplit, hx⟩ := reattaches_of_heldBy h hn hfree hheld
    exact .inr ⟨hx.lookingUp hn, waiting, answer, rest, hsplit, hx⟩

/-- Who waits to record a prompt or to mark the panel shows it as busy on getting the lock. -/
theorem busy_of_waiting (hfits : c.Fitting) (hop : c.system.operations[n]? = some op)
    (hw : c.waiting n = some .mark ∨ ∃ text, c.waiting n = some (.record text)) :
    (c.move (.enter n)).system.world.studio.isStreaming op.mode = true := by
  obtain ⟨part, hpart, hkind⟩ : ∃ part, c.waiting n = some part ∧
      (part = .mark ∨ ∃ text, part = .record text) := by
    rcases hw with hw | ⟨text, hw⟩
    · exact ⟨_, hw, .inl rfl⟩
    · exact ⟨_, hw, .inr ⟨text, rfl⟩⟩
  rw [move_enter hpart hop, world_put, Operation.isStreaming_enter _ (hfits.fits hpart hop)]
  rcases hkind with rfl | ⟨text, rfl⟩ <;> rfl

/-- Whose action wins. An operation cancels the live token of one that has been issued later exactly
if it reattaches: its lookup is answered, and its execution can be followed again. Once a panel has
been stopped, an operation issued before makes it busy again only if it had taken the panel over
before the stop and still waited for the lock to record its prompt or to mark the panel, or if it
was looking up its execution then and has reattached since. An operation that reattaches does take
the panel over and waits to mark it, and whoever waits like that makes the panel busy when it gets
the lock. -/
theorem overtakes_iff (settings : Settings) (studio : Studio) (tasks : Tasks) (mode : Mode)
    (before : List Move) :
    let c := (new settings studio tasks).run before
    let stopped := c.move (.act (.abort mode))
    (∀ x n k t, c.actor? x = some n → n < k → c.system.Holds mode k t →
      (c.system.world.control mode).Live t →
      (¬ ((c.move x).system.world.control mode).Live t ↔ c.Reattaches mode n x)) ∧
    (∀ after x n, (stopped.run after).actor? x = some n → n < c.system.operations.length →
      (stopped.run after).system.world.studio.isStreaming mode = false →
      ((stopped.run after).move x).system.world.studio.isStreaming mode = true →
      x = .enter n ∧ (c.waiting n = some .mark ∨ ∃ text, c.waiting n = some (.record text)) ∨
        (∃ op executionId, c.system.operations[n]? = some op ∧ op.mode = mode ∧
          op.stage = .lookingUp executionId) ∧
        ∃ waiting answer rest, after = waiting ++ .act (.arrive n answer) :: rest ∧
          (stopped.run waiting).Reattaches mode n (.act (.arrive n answer))) ∧
    (∀ n x, c.Reattaches mode n x →
      (c.move x).HeldBy mode n ∧ (c.move x).waiting n = some .mark) ∧
    ∀ n op, c.system.operations[n]? = some op →
      (c.waiting n = some .mark ∨ ∃ text, c.waiting n = some (.record text)) →
      (c.move (.enter n)).system.world.studio.isStreaming op.mode = true := by
  intro c stopped
  have htokens : c.system.Tokened mode := tokened_run settings studio tasks mode before
  have hfits : c.Fitting := fitting_run settings studio tasks before
  refine ⟨fun x n k t hactor hnk hheld hlive => ?_, fun after x n hactor hn hidle hbusy => ?_,
    fun n x hx => hx.heldBy htokens, fun n op hop hw => busy_of_waiting hfits hop hw⟩
  · rw [not_live_move_iff htokens hheld hlive]
    constructor
    · rintro (rfl | hx)
      · cases hactor
      · exact hx.reattaches hactor (Nat.lt_trans hnk hheld.lt)
    · exact fun hx => .inr hx.takesOver
  · exact waits_or_reattaches_of_busy (c := stopped) (tokened_move htokens _) (hfits.move _)
      (fun t => not_live_act_abort htokens.sound) hn hactor hidle hbusy

/-- A resume is looking up its execution when a prompt is sent, or when the panel is stopped. The
answer cancels the token of the prompt; and the stopped panel is busy again once the resume has got
the lock. -/
theorem overtakes_iff_stopped :
    let found : Execution :=
      { id := "e1", kind := .webBuilder, status := .running, error := none, graphId := "g1"
        sessionId := "s1", createdAt := default, startedAt := none, completedAt := none
        updatedAt := default }
    let start := new {} {} (({} : Tasks).set Tasks.siteSpace "g1" "e1")
    let answer : Move := .act (.arrive 0 (.execution (.ok found)))
    let sent := start.run
      [.act (.resume .webCreator "g1"), .act (.send .webCreator (some "g1") "again"), .enter 1]
    let resumed := start.run [.act (.resume .webCreator "g1")]
    let stopped := resumed.move (.act (.abort .webCreator))
    let late := stopped.run [.clear .webCreator, answer]
    (sent.actor? answer = some 0 ∧ sent.system.Holds .webCreator 1 0 ∧
        (sent.system.world.control .webCreator).Live 0 ∧ sent.Reattaches .webCreator 0 answer ∧
        ¬ ((sent.move answer).system.world.control .webCreator).Live 0) ∧
      (late.actor? (.enter 0) = some 0 ∧ 0 < resumed.system.operations.length ∧
        late.system.world.studio.isStreaming .webCreator = false ∧
        (late.move (.enter 0)).system.world.studio.isStreaming .webCreator = true) ∧
      ∃ waiting answer' rest,
        [.clear .webCreator, answer] = waiting ++ .act (.arrive 0 answer') :: rest ∧
          (stopped.run waiting).Reattaches .webCreator 0 (.act (.arrive 0 answer')) := by
  intro found start answer sent resumed stopped late
  have hheld : sent.system.Holds .webCreator 1 0 := ⟨_, rfl, rfl, rfl⟩
  have hlive : (sent.system.world.control .webCreator).Live 0 := rfl
  have hanswer : sent.Reattaches .webCreator 0 answer := .intro rfl rfl rfl rfl rfl
  obtain ⟨hcancel, _⟩ := overtakes_iff {} {} (({} : Tasks).set Tasks.siteSpace "g1" "e1")
    .webCreator
    [.act (.resume .webCreator "g1"), .act (.send .webCreator (some "g1") "again"), .enter 1]
  obtain ⟨_, hstop, _⟩ := overtakes_iff {} {} (({} : Tasks).set Tasks.siteSpace "g1" "e1")
    .webCreator [.act (.resume .webCreator "g1")]
  have hmarked : (late.move (.enter 0)).system.world.studio.isStreaming .webCreator = true := rfl
  refine ⟨⟨rfl, hheld, hlive, hanswer, ?_⟩, ⟨rfl, Nat.one_pos, rfl, hmarked⟩, ?_⟩
  · exact (hcancel _ 0 1 0 rfl Nat.one_pos hheld hlive).mpr hanswer
  · rcases hstop [.clear .webCreator, answer] (.enter 0) 0 rfl Nat.one_pos rfl hmarked with
      ⟨_, hmark | ⟨text, hrecord⟩⟩ | ⟨_, hx⟩
    · cases hmark
    · cases hrecord
    · exact hx

end Contention

namespace System

/-- A resume waits for its lookup while a prompt is sent, or while the panel is stopped. Its answer
cancels the token of the prompt, and makes the stopped panel busy. -/
theorem resume_overtakes :
    let found : Execution :=
      { id := "e1", kind := .webBuilder, status := .running, error := none, graphId := "g1"
        sessionId := "s1", createdAt := default, startedAt := none, completedAt := none
        updatedAt := default }
    let resumed := (new {} {} (({} : Tasks).set Tasks.siteSpace "g1" "e1")).act
      (.resume .webCreator "g1")
    let sent := resumed.act (.send .webCreator (some "g1") "again")
    let stopped := resumed.act (.abort .webCreator)
    let answer : Action := .arrive 0 (.execution (.ok found))
    (sent.Holds .webCreator 1 0 ∧ sent.world.isCancelled .webCreator 0 = false ∧
        (sent.act answer).Holds .webCreator 1 0 ∧
        (sent.act answer).world.isCancelled .webCreator 0 = true) ∧
      stopped.world.studio.isStreaming .webCreator = false ∧
      (stopped.act answer).world.studio.isStreaming .webCreator = true := by
  exact ⟨⟨⟨_, rfl, rfl, rfl⟩, rfl, ⟨_, rfl, rfl, rfl⟩, rfl⟩, rfl, rfl⟩

end System

end PromptStudio
