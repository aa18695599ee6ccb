import PromptStudio.Proofs.Backend.Refusal
import PromptStudio.Proofs.Session.Alone
import PromptStudio.Proofs.Session.Without

/-!
# Attachments that are refused

A resume looks up the execution that is remembered, and the loading of a conversation asks for it;
neither does anything before its answer has come. What becomes of them is a matter of that answer
(`ResumeStage`, `LoadStage`), and unless it grants what was asked for, none of their steps changes
the world. So they can be left out of the schedule, whatever else goes on in it
(`refused_attachments_unnoticed`).
-/

namespace PromptStudio

/-! ## Answers -/

/-- The state of an execution, if that is what arrives. -/
def Arrival.execution? : Arrival → Option (Except Failure Execution)
  | .execution r => some r
  | _ => none

/-- A stored conversation, if that is what arrives. -/
def Arrival.history? : Arrival → Option (Except Failure (List Entry))
  | .history r => some r
  | _ => none

section Answers

variable {α : Type} {look : Arrival → Option α} {n : Nat} {as bs : List Action} {r : α}

/-- What an action brings the operation `n`. -/
def answerAt? (look : Arrival → Option α) (n : Nat) : Action → Option α
  | .arrive k a => if k = n then look a else none
  | _ => none

/-- The first answer that a schedule brings the operation `n`. -/
def firstAnswer? (look : Arrival → Option α) (n : Nat) (as : List Action) : Option α :=
  as.findSome? (answerAt? look n)

theorem firstAnswer?_concat (look : Arrival → Option α) (n : Nat) (as : List Action) (x : Action) :
    firstAnswer? look n (as ++ [x]) = (firstAnswer? look n as).or (answerAt? look n x) := by
  unfold firstAnswer?
  rw [List.findSome?_append]
  simp

/-- The answer that came first stays the first. -/
theorem firstAnswer?_append (h : firstAnswer? look n as = some r) :
    firstAnswer? look n (as ++ bs) = some r := by
  unfold firstAnswer? at h ⊢
  rw [List.findSome?_append, h]
  rfl

theorem answerAt?_self (look : Arrival → Option α) (n : Nat) (a : Arrival) :
    answerAt? look n (.arrive n a) = look a := if_pos rfl

/-- An answer that has come before, or comes now, is the first one of the whole schedule. -/
theorem firstAnswer?_split {a : Arrival} (h : (firstAnswer? look n as).or (look a) = some r) :
    firstAnswer? look n (as ++ .arrive n a :: bs) = some r := by
  have hfirst : firstAnswer? look n (as ++ [.arrive n a]) = some r := by
    rw [firstAnswer?_concat, answerAt?_self, h]
  rw [← List.singleton_append, ← List.append_assoc]
  exact firstAnswer?_append hfirst

end Answers

/-! ## What becomes of an attachment -/

namespace Operation

/-- A stage of an operation that has been let follow the execution `id`. -/
inductive Attached (id : String) : Stage → Prop
  | opening {token graphId} : Attached id (.opening token graphId id)
  | following {token graphId} : Attached id (.following token graphId id)
  | failed {e} : Attached id (.finished (.error e))
  | finished {run} (hrun : run.executionId = id) : Attached id (.finished (.ok (some run)))

/-- The stage of a resume for which the execution `asked` was remembered, and that has been answered
`found`. -/
inductive ResumeStage (asked : Option String) (found : Option (Except Failure Execution)) :
    Stage → Prop
  | unknown (hasked : asked = none) : ResumeStage asked found (.finished (.ok none))
  | waiting {id} (hasked : asked = some id) (hfound : found = none) :
      ResumeStage asked found (.lookingUp id)
  | failed {id e} (hasked : asked = some id) (hfound : found = some (.error e)) :
      ResumeStage asked found (.finished (.error e))
  | stopped {id x} (hasked : asked = some id) (hfound : found = some (.ok x))
      (hx : x.status ≠ .running) : ResumeStage asked found (.finished (.ok none))
  | attached {id x stage} (hasked : asked = some id) (hfound : found = some (.ok x))
      (hx : x.status = .running) (hstage : Attached id stage) : ResumeStage asked found stage

/-- The stage of an operation that loads the conversation about `workflowId`, and that has been
answered `stored`. -/
inductive LoadStage (workflowId : String) (stored : Option (Except Failure (List Entry))) :
    Stage → Prop
  | waiting (hstored : stored = none) : LoadStage workflowId stored (.loading workflowId)
  | failed {e} (hstored : stored = some (.error e)) :
      LoadStage workflowId stored (.finished (.error e))
  | loaded {entries} (hstored : stored = some (.ok entries)) :
      LoadStage workflowId stored (.finished (.ok none))

variable {op : Operation} {id workflowId : String}
  {asked : Option String} {found : Option (Except Failure Execution)}
  {stored : Option (Except Failure (List Entry))}

theorem Attached.receive (h : Attached id op.stage) (w : World) (a : Arrival) :
    Attached id (op.receive w a).2.stage := by
  have hstep := step_receive w op a
  generalize op.receive w a = r at hstep
  cases hstep with
  | ignored | heard => exact h
  | refused => exact .failed
  | opened hs =>
    rw [hs] at h
    cases h
    exact .following
  | noticed hs | ended hs | lost hs =>
    rw [hs] at h
    cases h
    exact .finished rfl
  | ticketed hs | resumed hs | dismissed hs | loaded hs | unloaded hs =>
    rw [hs] at h
    cases h

/-- A lookup ends with the first answer to it, and changes nothing unless the execution that was
found is running. -/
theorem receive_lookingUp (hs : op.stage = .lookingUp id) (w : World) (a : Arrival) :
    (a.execution? = none ∧ op.receive w a = (w, op)) ∨
      (∃ e, a.execution? = some (.error e) ∧ op.receive w a = (w, op.finish (.error e))) ∨
      (∃ x, a.execution? = some (.ok x) ∧ x.status ≠ .running ∧
        op.receive w a = (w, op.finish (.ok none))) ∨
      ∃ x, a.execution? = some (.ok x) ∧ x.status = .running ∧
        (op.receive w a).2.stage = .opening (w.takeOver op.mode).2 x.graphId id := by
  unfold receive
  rw [hs]
  rcases a with _ | (e | x) | _ | _ | _ | _ | _ | _ | _
  case execution.error => exact .inr (.inl ⟨e, rfl, rfl⟩)
  case execution.ok =>
    by_cases hx : x.status = .running
    · exact .inr (.inr (.inr ⟨x, rfl, hx, by simp [ExecutionStatus.isResumable, hx]⟩))
    · exact .inr (.inr (.inl ⟨x, rfl, hx, by simp [ExecutionStatus.isResumable, hx]⟩))
  all_goals exact .inl ⟨rfl, rfl⟩

/-- What is loaded changes nothing unless it has come. -/
theorem receive_loading (hs : op.stage = .loading workflowId) (w : World) (a : Arrival) :
    (a.history? = none ∧ op.receive w a = (w, op)) ∨
      (∃ e, a.history? = some (.error e) ∧ op.receive w a = (w, op.finish (.error e))) ∨
      ∃ entries, a.history? = some (.ok entries) ∧
        (op.receive w a).2 = op.finish (.ok none) := by
  unfold receive
  rw [hs]
  rcases a with _ | _ | _ | (e | entries) | _ | _ | _ | _ | _
  case history.error => exact .inr (.inl ⟨e, rfl, rfl⟩)
  case history.ok => exact .inr (.inr ⟨entries, rfl, rfl⟩)
  all_goals exact .inl ⟨rfl, rfl⟩

theorem ResumeStage.receive (h : ResumeStage asked found op.stage) (w : World) (a : Arrival) :
    ResumeStage asked (found.or a.execution?) (op.receive w a).2.stage := by
  cases hs : op.stage with
  | lookingUp id =>
    rw [hs] at h
    cases h with
    | attached _ _ _ hstage => cases hstage
    | waiting hasked hfound =>
      subst hfound
      rw [Option.none_or]
      rcases receive_lookingUp hs w a with ⟨ha, hr⟩ | ⟨e, ha, hr⟩ | ⟨x, ha, hx, hr⟩ |
        ⟨x, ha, hx, hr⟩
      · rw [hr, hs]
        exact .waiting hasked ha
      · rw [hr]
        exact .failed hasked ha
      · rw [hr]
        exact .stopped hasked ha hx
      · rw [hr]
        exact .attached hasked ha hx .opening
  | finished r =>
    -- a finished operation stays as it is, and its answer stays the first
    rw [receive_finished hs, hs]
    rw [hs] at h
    cases h with
    | unknown hasked => exact .unknown hasked
    | failed hasked hfound => exact .failed hasked (by rw [hfound, Option.some_or])
    | stopped hasked hfound hx => exact .stopped hasked (by rw [hfound, Option.some_or]) hx
    | attached hasked hfound hx hstage =>
      exact .attached hasked (by rw [hfound, Option.some_or]) hx hstage
  | submitting _ _ _ | opening _ _ _ | following _ _ _ | loading _ =>
    rw [hs] at h
    cases h with
    | attached hasked hfound hx hstage =>
      rw [← hs] at hstage
      exact .attached hasked (by rw [hfound, Option.some_or]) hx (hstage.receive w a)

theorem LoadStage.receive (h : LoadStage workflowId stored op.stage) (w : World) (a : Arrival) :
    LoadStage workflowId (stored.or a.history?) (op.receive w a).2.stage := by
  cases hs : op.stage with
  | loading id =>
    rw [hs] at h
    cases h with
    | waiting hstored =>
      subst hstored
      rw [Option.none_or]
      rcases receive_loading hs w a with ⟨ha, hr⟩ | ⟨e, ha, hr⟩ | ⟨entries, ha, hr⟩
      · rw [hr, hs]
        exact .waiting ha
      · rw [hr]
        exact .failed ha
      · rw [hr]
        exact .loaded ha
  | finished r =>
    rw [receive_finished hs, hs]
    rw [hs] at h
    cases h with
    | failed hstored => exact .failed (by rw [hstored, Option.some_or])
    | loaded hstored => exact .loaded (by rw [hstored, Option.some_or])
  | submitting _ _ _ | opening _ _ _ | following _ _ _ | lookingUp _ =>
    rw [hs] at h
    cases h

/-- A resume changes nothing unless it has been answered that its execution is running. -/
theorem ResumeStage.world_or (h : ResumeStage asked found op.stage) (w : World) (a : Arrival) :
    (op.receive w a).1 = w ∨
      ∃ id x, asked = some id ∧ found.or a.execution? = some (.ok x) ∧ x.status = .running := by
  generalize hs : op.stage = stage at h
  cases h with
  | unknown | failed | stopped => exact .inl (by rw [receive_finished hs])
  | waiting hasked hfound =>
    subst hfound
    rcases receive_lookingUp hs w a with ⟨_, hr⟩ | ⟨e, _, hr⟩ | ⟨x, _, _, hr⟩ | ⟨x, ha, hx, _⟩
    · exact .inl (by rw [hr])
    · exact .inl (by rw [hr])
    · exact .inl (by rw [hr])
    · exact .inr ⟨_, x, hasked, by rw [ha, Option.none_or], hx⟩
  | attached hasked hfound hx =>
    exact .inr ⟨_, _, hasked, by rw [hfound, Option.some_or], hx⟩

theorem LoadStage.world_or (h : LoadStage workflowId stored op.stage) (w : World) (a : Arrival) :
    (op.receive w a).1 = w ∨ ∃ entries, stored.or a.history? = some (.ok entries) := by
  generalize hs : op.stage = stage at h
  cases h with
  | failed | loaded => exact .inl (by rw [receive_finished hs])
  | waiting hstored =>
    subst hstored
    rcases receive_loading hs w a with ⟨_, hr⟩ | ⟨e, _, hr⟩ | ⟨entries, ha, _⟩
    · exact .inl (by rw [hr])
    · exact .inl (by rw [hr])
    · exact .inr ⟨entries, by rw [ha, Option.none_or]⟩

theorem request?_lookingUp (hs : op.stage = .lookingUp id) :
    op.request? = some (Query.execution id).request := by
  unfold request?
  rw [hs]

theorem request?_loading (hs : op.stage = .loading workflowId) :
    op.request? = some (Query.siteHistory workflowId).request := by
  unfold request?
  rw [hs]

/-- A resume asks for the state of the execution that was remembered, and for its stream after it
has been answered that this one is running. -/
theorem ResumeStage.request (h : ResumeStage asked found op.stage) {r : Request}
    (hr : op.request? = some r) :
    ∃ id, asked = some id ∧
      (r = (Query.execution id).request ∧ found = none ∨
        r = streamRequest op.mode id ∧ ∃ x, found = some (.ok x) ∧ x.status = .running) := by
  generalize hs : op.stage = stage at h
  cases h with
  | unknown | failed | stopped =>
    unfold request? at hr
    rw [hs] at hr
    cases op.mode <;> cases hr
  | waiting hasked hfound =>
    rw [request?_lookingUp hs] at hr
    exact ⟨_, hasked, .inl ⟨(Option.some.inj hr).symm, hfound⟩⟩
  | attached hasked hfound hx hstage =>
    cases hstage with
    | opening =>
      rw [request?_opening hs] at hr
      exact ⟨_, hasked, .inr ⟨(Option.some.inj hr).symm, _, hfound, hx⟩⟩
    | following | failed | finished =>
      unfold request? at hr
      rw [hs] at hr
      cases op.mode <;> cases hr

theorem LoadStage.not_stream (h : LoadStage workflowId stored op.stage) {r : Request}
    (hr : op.request? = some r) : r.eventStream = false := by
  generalize hs : op.stage = stage at h
  cases h with
  | waiting =>
    rw [request?_loading hs] at hr
    obtain rfl := Option.some.inj hr
    rfl
  | failed | loaded =>
    unfold request? at hr
    rw [hs] at hr
    cases op.mode <;> cases hr

/-! ## What a reply makes of them -/

/-- A reply to a request that is not for a stream is one arrival. -/
theorem take_eq_receive {r : Reply} {a : Arrival} (ha : op.arrivalOf? r = some a)
    (hs : ∀ token graphId id, op.stage ≠ .opening token graphId id) (w : World) :
    op.take w r = op.receive w a := by
  unfold take
  rw [ha]
  cases hstage : op.stage with
  | opening token graphId id => exact absurd hstage (hs token graphId id)
  | submitting | lookingUp | following | loading | finished => rfl

/-- Whatever the backend replies to a lookup, the operation ends and the world stays as it is,
unless the reply reports an execution that is running. -/
theorem take_lookingUp (hs : op.stage = .lookingUp id) (w : World) (r : Reply) :
    (op.take w r).1 = w ∧ (op.take w r).2.result?.isSome = true ∨
      ∃ x, (Query.execution id).Reports r x ∧ x.status = .running := by
  let a : Arrival := .execution ((Query.execution id).answer r)
  have harrival : op.arrivalOf? r = some a := by
    unfold arrivalOf?
    rw [hs]
  rw [take_eq_receive harrival (by rw [hs]; nofun)]
  rcases receive_lookingUp hs w a with ⟨ha, _⟩ | ⟨e, _, hr⟩ | ⟨x, _, _, hr⟩ | ⟨x, ha, hx, _⟩
  · cases ha
  · exact .inl (by rw [hr]; exact ⟨rfl, rfl⟩)
  · exact .inl (by rw [hr]; exact ⟨rfl, rfl⟩)
  · exact .inr ⟨x, Query.answer_eq_ok_iff.mp (Option.some.inj ha), hx⟩

theorem take_loading (hs : op.stage = .loading workflowId) (w : World) (r : Reply) :
    (op.take w r).1 = w ∧ (op.take w r).2.result?.isSome = true ∨
      ∃ entries, (Query.siteHistory workflowId).Reports r entries := by
  let a : Arrival := .history ((Query.siteHistory workflowId).answer r)
  have harrival : op.arrivalOf? r = some a := by
    unfold arrivalOf?
    rw [hs]
  rw [take_eq_receive harrival (by rw [hs]; nofun)]
  rcases receive_loading hs w a with ⟨ha, _⟩ | ⟨e, _, hr⟩ | ⟨entries, ha, _⟩
  · cases ha
  · exact .inl (by rw [hr]; exact ⟨rfl, rfl⟩)
  · exact .inr ⟨entries, Query.answer_eq_ok_iff.mp (Option.some.inj ha)⟩

end Operation

/-! ## Along a schedule -/

namespace System

open Operation (ResumeStage LoadStage)

variable {s : System} {n : Nat} {as : List Action} {op : Operation} {mode : Mode}
  {workflowId : String}

theorem getElem?_act_self (hop : s.operations[n]? = some op) (a : Arrival) :
    (s.act (.arrive n a)).operations[n]? = some (op.receive s.world a).2 := by
  have hlt := (List.getElem?_eq_some_iff.mp hop).1
  rw [act_arrive hop]
  exact List.getElem?_set_self hlt

theorem getElem?_act_other {x : Action} (hop : s.operations[n]? = some op)
    (hx : ∀ a, x ≠ .arrive n a) : (s.act x).operations[n]? = some op := by
  rcases operations_act_of_some x hop with h | ⟨a, rfl, _⟩
  · exact h
  · exact absurd rfl (hx a)

/-- What the arrivals of one operation make of it and of its first answer holds of it throughout a
schedule. -/
theorem operation_run {α : Type} {look : Arrival → Option α} {P : Option α → Operation → Prop}
    (hstep : ∀ w op answer a, P answer op → P (answer.or (look a)) (op.receive w a).2)
    (hop : s.operations[n]? = some op) (h : P none op) (as : List Action) :
    ∃ op', (s.run as).operations[n]? = some op' ∧ P (firstAnswer? look n as) op' := by
  induction as using List.reverseRecOn with
  | nil => exact ⟨op, hop, h⟩
  | append_singleton as x ih =>
    obtain ⟨op', hop', hp⟩ := ih
    rw [run_concat, firstAnswer?_concat]
    by_cases hx : ∃ a, x = .arrive n a
    · obtain ⟨a, rfl⟩ := hx
      rw [answerAt?_self]
      exact ⟨_, getElem?_act_self hop' a, hstep _ _ _ a hp⟩
    · have hanswer : answerAt? look n x = none := by
        cases x with
        | arrive k a =>
          have hk : k ≠ n := fun hk => hx ⟨a, by rw [hk]⟩
          exact if_neg hk
        | send _ _ _ | resume _ _ | load _ | abort _ => rfl
      rw [hanswer, Option.or_none]
      exact ⟨op', getElem?_act_other hop' fun a ha => hx ⟨a, ha⟩, hp⟩

/-- A resume stands where its answer has brought it. -/
theorem resumeStage_run (s : System) (mode : Mode) (workflowId : String) (as : List Action) :
    ∃ op, ((s.act (.resume mode workflowId)).run as).operations[s.operations.length]? = some op ∧
      op.mode = mode ∧
      ResumeStage (s.world.tasks.get? (World.space mode) workflowId)
        (firstAnswer? Arrival.execution? s.operations.length as) op.stage := by
  refine operation_run (P := fun found op => op.mode = mode ∧
      ResumeStage (s.world.tasks.get? (World.space mode) workflowId) found op.stage)
    (fun w op found a h => ⟨(op.mode_receive w a).trans h.1, h.2.receive w a⟩)
    (getElem?_issue s _) ⟨Operation.mode_resume _ _ _, ?_⟩ as
  unfold World.resume
  cases hasked : s.world.tasks.get? (World.space mode) workflowId with
  | none => exact .unknown rfl
  | some id => exact .waiting rfl rfl

theorem loadStage_run (s : System) (workflowId : String) (as : List Action) :
    ∃ op, ((s.act (.load workflowId)).run as).operations[s.operations.length]? = some op ∧
      LoadStage workflowId (firstAnswer? Arrival.history? s.operations.length as) op.stage :=
  operation_run (P := fun stored op => LoadStage workflowId stored op.stage)
    (fun w _ _ a h => h.receive w a) (getElem?_issue s _) (.waiting rfl) as

/-- The operation that `x` issues makes no difference: none of its steps changes the world, it asks
for no stream, and the schedule without it ends in the same world with the same other operations. -/
structure Unnoticed (s : System) (x : Action) (as : List Action) : Prop where
  issued : (s.act x).world = s.world
  steps : (s.act x).LeavesWorld s.operations.length as
  streams : ∀ before after op r, as = before ++ after →
    ((s.act x).run before).operations[s.operations.length]? = some op → op.request? = some r →
    r.eventStream = false
  others : ((s.act x).run as).without s.operations.length =
    s.run (as.filterMap (Action.without? s.operations.length))

/-- An operation that is issued in the same world and leaves it as it is makes no difference. -/
theorem without_run_issue {r : World × Operation} (hr : r.1 = s.world)
    (h : (s.issue r).LeavesWorld s.operations.length as) :
    ((s.issue r).run as).without s.operations.length =
      s.run (as.filterMap (Action.without? s.operations.length)) := by
  have hlt : s.operations.length < (s.issue r).operations.length := by simp [issue]
  rw [run_without hlt h, without_issue_self, hr]

/-- A resume that has not been answered that its execution is running makes no difference. -/
theorem unnoticed_resume
    (h : ∀ id x, s.world.tasks.get? (World.space mode) workflowId = some id →
      firstAnswer? Arrival.execution? s.operations.length as = some (.ok x) → x.status ≠ .running) :
    s.Unnoticed (.resume mode workflowId) as := by
  have hissued : (s.world.resume mode workflowId).1 = s.world := Operation.fst_resume _ _ _
  have hsteps : (s.act (.resume mode workflowId)).LeavesWorld s.operations.length as := by
    rintro before a after rfl
    obtain ⟨op, hop, _, hstage⟩ := resumeStage_run s mode workflowId before
    rw [act_arrive hop]
    refine (hstage.world_or _ a).resolve_right ?_
    rintro ⟨id, x, hasked, hfound, hx⟩
    exact h id x hasked (firstAnswer?_split hfound) hx
  refine ⟨hissued, hsteps, ?_, without_run_issue hissued hsteps⟩
  rintro before after op r rfl hop hr
  obtain ⟨op', hop', _, hstage⟩ := resumeStage_run s mode workflowId before
  obtain rfl := Option.some.inj (hop.symm.trans hop')
  obtain ⟨id, hasked, ⟨rfl, _⟩ | ⟨_, x, hfound, hx⟩⟩ := hstage.request hr
  · rfl
  · exact absurd hx (h id x hasked (firstAnswer?_append hfound))

/-- The loading of a conversation that has not come makes no difference. -/
theorem unnoticed_load
    (h : ∀ entries, firstAnswer? Arrival.history? s.operations.length as ≠ some (.ok entries)) :
    s.Unnoticed (.load workflowId) as := by
  have hsteps : (s.act (.load workflowId)).LeavesWorld s.operations.length as := by
    rintro before a after rfl
    obtain ⟨op, hop, hstage⟩ := loadStage_run s workflowId before
    rw [act_arrive hop]
    refine (hstage.world_or _ a).resolve_right ?_
    rintro ⟨entries, hstored⟩
    exact h entries (firstAnswer?_split hstored)
  refine ⟨rfl, hsteps, ?_, without_run_issue rfl hsteps⟩
  rintro before after op r rfl hop hr
  obtain ⟨op', hop', hstage⟩ := loadStage_run s workflowId before
  obtain rfl := Option.some.inj (hop.symm.trans hop')
  exact hstage.not_stream hr

/-- Refused attachments go unnoticed. Whatever state the panels, their tokens and the remembered
executions are in, and whatever else is going on: a resume that ends without a stream or whose
lookup fails, and the loading of a conversation that fails, change nothing at any of their steps and
open no stream, and the schedule without them ends the same, streams that are being followed
included. A resume asks the backend for the state of the execution that its own panel had remembered
for the workflow when it was issued, and, after the answer to that said that this one is running,
for its stream; it makes no other request. Of all replies to the lookup only one that reports a
running execution does more than end the operation, and of all replies to the request for a
conversation only one that reports it. -/
theorem refused_attachments_unnoticed (s : System) (mode : Mode) (workflowId : String)
    (as : List Action) :
    let n := s.operations.length
    let resumed := (s.act (.resume mode workflowId)).run as
    let loaded := (s.act (.load workflowId)).run as
    (∀ op, resumed.operations[n]? = some op →
      (op.result? = some (.ok none) ∨ ∃ e, firstAnswer? Arrival.execution? n as = some (.error e)) →
      s.Unnoticed (.resume mode workflowId) as) ∧
    (∀ op e, loaded.operations[n]? = some op → op.result? = some (.error e) →
      s.Unnoticed (.load workflowId) as) ∧
    (∀ op r, resumed.operations[n]? = some op → op.request? = some r →
      ∃ id, s.world.tasks.get? (World.space mode) workflowId = some id ∧
        (r = (Query.execution id).request ∧ r.eventStream = false ∧
            firstAnswer? Arrival.execution? n as = none ∨
          r = streamRequest mode id ∧
            ∃ x, firstAnswer? Arrival.execution? n as = some (.ok x) ∧ x.status = .running)) ∧
    ∀ (w : World) (op : Operation) (reply : Reply),
      (∀ id, op.stage = .lookingUp id →
        op.request? = some (Query.execution id).request ∧
          ((op.take w reply).1 = w ∧ (op.take w reply).2.result?.isSome = true ∨
            ∃ x, (Query.execution id).Reports reply x ∧ x.status = .running)) ∧
      ∀ id, op.stage = .loading id →
        op.request? = some (Query.siteHistory id).request ∧
          ((op.take w reply).1 = w ∧ (op.take w reply).2.result?.isSome = true ∨
            ∃ entries, (Query.siteHistory id).Reports reply entries) := by
  intro n resumed loaded
  refine ⟨?_, ?_, ?_, ?_⟩
  · intro op hop hrefused
    obtain ⟨op', hop', _, hstage⟩ := resumeStage_run s mode workflowId as
    obtain rfl := Option.some.inj (hop.symm.trans hop')
    refine unnoticed_resume fun id x hasked hfound hx => ?_
    rcases hrefused with hnone | ⟨e, herror⟩
    · -- a resume that has been let follow its execution ends with a stream, or with a failure
      unfold Operation.result? at hnone
      generalize op.stage = stage at hstage hnone
      cases hstage with
      | unknown hunknown => cases hunknown.symm.trans hasked
      | waiting | failed => cases hnone
      | stopped _ hfound' hx' =>
        obtain rfl := Except.ok.inj (Option.some.inj (hfound.symm.trans hfound'))
        exact hx' hx
      | attached _ _ _ hattached => cases hattached <;> cases hnone
    · cases hfound.symm.trans herror
  · intro op e hop herror
    obtain ⟨op', hop', hstage⟩ := loadStage_run s workflowId as
    obtain rfl := Option.some.inj (hop.symm.trans hop')
    refine unnoticed_load fun entries hstored => ?_
    unfold Operation.result? at herror
    generalize op.stage = stage at hstage herror
    cases hstage with
    | waiting | loaded => cases herror
    | failed hstored' => cases hstored.symm.trans hstored'
  · intro op r hop hr
    obtain ⟨op', hop', rfl, hstage⟩ := resumeStage_run s mode workflowId as
    obtain rfl := Option.some.inj (hop.symm.trans hop')
    obtain ⟨id, hasked, ⟨rfl, hfound⟩ | hattached⟩ := hstage.request hr
    · exact ⟨id, hasked, .inl ⟨rfl, rfl, hfound⟩⟩
    · exact ⟨id, hasked, .inr hattached⟩
  · intro w op reply
    exact ⟨fun id hs => ⟨Operation.request?_lookingUp hs, Operation.take_lookingUp hs w reply⟩,
      fun id hs => ⟨Operation.request?_loading hs, Operation.take_loading hs w reply⟩⟩

/-- The stream of a site is open. A resume finds no backend, another one is told that the execution
runs, and a conversation cannot be read: only the second asks for a stream, and the text that comes
after the first is shown as if it had not been there. -/
theorem refused_attachments_unnoticed_amid_stream :
    let s := (new {} {} {}).run
      [.send .webCreator (some "g1") "a blog",
        .arrive 0 (.ticket (.ok ⟨"session", "e1", "g1"⟩)), .arrive 0 (.opened (.ok ()))]
    let text : List Action :=
      [.arrive 0 (.frame { event := "start", data := "\x7b\"taskId\": \"t\"\x7d" }),
        .arrive 0 (.frame { event := "delta", data := "\x7b\"content\": \"hi\"\x7d" })]
    let found : Execution :=
      { id := "e1", kind := .webBuilder, status := .running, error := none, graphId := "g1"
        sessionId := "session", createdAt := default, startedAt := none, completedAt := none
        updatedAt := default }
    let lost : List Action := .arrive 1 (.execution (.error (.http "no answer"))) :: text
    let unread : List Action := .arrive 1 (.history (.error .unreadable)) :: text
    let running : List Action := [.arrive 1 (.execution (.ok found))]
    ((∃ e, firstAnswer? Arrival.execution? 1 lost = some (.error e)) ∧
        ((s.act (.resume .webCreator "g1")).run lost).without 1 = s.run text) ∧
      ((s.act (.load "g1")).run unread).without 1 = s.run text ∧
      (∃ op, ((s.act (.resume .webCreator "g1")).run running).operations[1]? = some op ∧
        op.request? = some (.siteStream "e1")) ∧
      ∃ id x, s.world.tasks.get? (World.space .webCreator) "g1" = some id ∧
        Request.siteStream "e1" = streamRequest .webCreator id ∧
        firstAnswer? Arrival.execution? 1 running = some (.ok x) ∧ x.status = .running := by
  intro s text found lost unread running
  have hlost : firstAnswer? Arrival.execution? 1 lost = some (.error (.http "no answer")) := rfl
  obtain ⟨hresume, _, _, _⟩ := refused_attachments_unnoticed s .webCreator "g1" lost
  obtain ⟨_, hload, _, _⟩ := refused_attachments_unnoticed s .webCreator "g1" unread
  obtain ⟨_, _, hrequest, _⟩ := refused_attachments_unnoticed s .webCreator "g1" running
  have hop : ((s.act (.resume .webCreator "g1")).run running).operations[1]? =
    some { mode := .webCreator, stage := .opening 1 "g1" "e1" } := rfl
  refine ⟨⟨⟨_, hlost⟩, (hresume _ rfl (.inr ⟨_, hlost⟩)).others⟩, (hload _ _ rfl rfl).others,
    ⟨_, hop, rfl⟩, ?_⟩
  obtain ⟨id, hasked, ⟨_, hstream, _⟩ | ⟨hr, x, hfound⟩⟩ :=
    hrequest _ (.siteStream "e1") hop rfl
  · cases hstream
  · exact ⟨id, x, hasked, hr, hfound⟩

end System

end PromptStudio
