import PromptStudio.Proofs.Session.World
import PromptStudio.Session.Operation

/-!
# The steps of an operation

`Step` lists what an operation can do when something arrives, one constructor for each kind of
step with its guard. `step_receive` says that `receive` does nothing else, so a fact about all
steps is one case analysis on `Step`, and `receive` is not unfolded again.
-/

namespace PromptStudio

namespace World

variable (w : World) (mode m : Mode) (workflowId : Option String) (text : String)

@[simp] theorem control_claim :
    (w.claim mode workflowId text).1.control m =
      if m = mode then (w.control mode).renew.1 else w.control m := control_takeOver w mode m

@[simp] theorem studio_claim : (w.claim mode workflowId text).1.studio = w.studio :=
  studio_takeOver w mode

@[simp] theorem tasks_claim : (w.claim mode workflowId text).1.tasks = w.tasks :=
  tasks_takeOver w mode

end World

/-- How an arrival that is no frame ends a stream that is being followed. -/
def Arrival.end? (idleSeconds : Nat) : Arrival → Option Outcome
  | .broken cause => some (.disconnected cause)
  | .closed => some .ended
  | .silence => some (.disconnected (.idle idleSeconds))
  | _ => none

namespace Operation

theorem fst_resume (w : World) (mode : Mode) (workflowId : String) :
    (w.resume mode workflowId).1 = w := by
  unfold World.resume
  split <;> rfl

theorem mode_resume (w : World) (mode : Mode) (workflowId : String) :
    (w.resume mode workflowId).2.mode = mode := by
  unfold World.resume
  split <;> rfl

theorem token?_resume (w : World) (mode : Mode) (workflowId : String) :
    (w.resume mode workflowId).2.token? = none := by
  unfold World.resume
  split <;> rfl

/-- The failure by which an arrival refuses the operation its ticket or its stream. -/
def refusal? (op : Operation) (a : Arrival) : Option Failure :=
  match op.stage, a with
  | .submitting .., .ticket (.error e) => some e
  | .opening .., .opened (.error e) => some e
  | _, _ => none

/-- What can come of an arrival. -/
inductive Step (w : World) (op : Operation) (a : Arrival) : World × Operation → Prop
  | ignored : Step w op a (w, op)
  | ticketed {token workflowId text t} (hs : op.stage = .submitting token workflowId text)
      (ha : a = .ticket (.ok t)) :
      Step w op a
        ({ w with tasks := w.tasks.set (World.space op.mode) t.graphId t.executionId },
          { op with stage := .opening token t.graphId t.executionId })
  | refused {token e} (ht : op.token? = some token) (he : op.refusal? a = some e) :
      Step w op a (w.refuse op.mode e, op.finish (.error e))
  | resumed {executionId x} (hs : op.stage = .lookingUp executionId)
      (ha : a = .execution (.ok x)) (hx : x.status.isResumable = true) :
      Step w op a
        ((w.takeOver op.mode).1.onStudio (·.setStreaming op.mode true),
          { op with stage := .opening (w.takeOver op.mode).2 x.graphId executionId })
  | dismissed {executionId r} (hs : op.stage = .lookingUp executionId) :
      Step w op a (w, op.finish r)
  | opened {token graphId executionId} (hs : op.stage = .opening token graphId executionId)
      (ha : a = .opened (.ok ())) :
      Step w op a (w, { op with stage := .following token graphId executionId })
  | loaded {workflowId entries} (hs : op.stage = .loading workflowId)
      (ha : a = .history (.ok entries)) :
      Step w op a
        (w.onStudio fun s => s.onPanel op.mode (·.load entries), op.finish (.ok none))
  | unloaded {workflowId e} (hs : op.stage = .loading workflowId) :
      Step w op a (w, op.finish (.error e))
  | noticed {token graphId executionId} (hs : op.stage = .following token graphId executionId)
      (hc : w.isCancelled op.mode token = true) :
      Step w op a (w, op.finishWith graphId executionId .aborted)
  | heard {token graphId executionId f} (hs : op.stage = .following token graphId executionId)
      (hc : w.isCancelled op.mode token = false) (ha : a = .frame f)
      (hf : World.endOf? op.mode f = none) :
      Step w op a (w.onStudio (World.applyFrame op.mode f), op)
  | ended {token graphId executionId f o} (hs : op.stage = .following token graphId executionId)
      (hc : w.isCancelled op.mode token = false) (ha : a = .frame f)
      (hf : World.endOf? op.mode f = some o) :
      Step w op a
        ((w.onStudio (World.applyFrame op.mode f)).settle op.mode o,
          op.finishWith graphId executionId o)
  | lost {token graphId executionId o} (hs : op.stage = .following token graphId executionId)
      (hc : w.isCancelled op.mode token = false)
      (ha : a.end? w.settings.idleSeconds = some o) :
      Step w op a (w.settle op.mode o, op.finishWith graphId executionId o)

theorem step_follow {w : World} {op : Operation} {token : Token} {graphId executionId : String}
    (hs : op.stage = .following token graphId executionId) (a : Arrival) :
    Step w op a (follow w op token graphId executionId a) := by
  unfold follow
  cases hc : w.isCancelled op.mode token with
  | true => exact .noticed hs hc
  | false =>
    simp only [Bool.false_eq_true, if_false]
    cases a with
    | frame f =>
      dsimp only
      cases hf : World.endOf? op.mode f with
      | none => exact .heard hs hc rfl hf
      | some o => exact .ended hs hc rfl hf
    | broken cause => exact .lost hs hc rfl
    | closed => exact .lost hs hc rfl
    | silence => exact .lost hs hc rfl
    | ticket _ | execution _ | opened _ | history _ | woken => exact .ignored

theorem receive_following {w : World} {op : Operation} {token : Token}
    {graphId executionId : String} (hs : op.stage = .following token graphId executionId)
    (a : Arrival) : op.receive w a = follow w op token graphId executionId a := by
  unfold receive
  rw [hs]

theorem receive_finished {w : World} {op : Operation} {r : Except Failure (Option StreamRun)}
    (hs : op.stage = .finished r) (a : Arrival) : op.receive w a = (w, op) := by
  unfold receive
  rw [hs]

/-- An operation makes no other steps than those of `Step`. -/
theorem step_receive (w : World) (op : Operation) (a : Arrival) :
    Step w op a (op.receive w a) := by
  cases hs : op.stage with
  | submitting token workflowId text =>
    unfold receive
    rw [hs]
    rcases a with (e | t) | _ | _ | _ | _ | _ | _ | _ | _
    · exact .refused (by unfold token?; rw [hs]) (by unfold refusal?; rw [hs])
    · exact .ticketed hs rfl
    all_goals exact .ignored
  | lookingUp executionId =>
    unfold receive
    rw [hs]
    rcases a with _ | (e | x) | _ | _ | _ | _ | _ | _ | _
    · exact .ignored
    · exact .dismissed hs
    · by_cases hx : x.status.isResumable = true
      · simp only [hx, if_true]
        exact .resumed hs rfl hx
      · simp only [hx]
        exact .dismissed hs
    all_goals exact .ignored
  | opening token graphId executionId =>
    unfold receive
    rw [hs]
    rcases a with _ | _ | (e | _) | _ | _ | _ | _ | _ | _
    · exact .ignored
    · exact .ignored
    · exact .refused (by unfold token?; rw [hs]) (by unfold refusal?; rw [hs])
    · exact .opened hs rfl
    all_goals exact .ignored
  | following token graphId executionId =>
    rw [receive_following hs]
    exact step_follow hs a
  | loading workflowId =>
    unfold receive
    rw [hs]
    rcases a with _ | _ | _ | (e | entries) | _ | _ | _ | _ | _
    · exact .ignored
    · exact .ignored
    · exact .ignored
    · exact .unloaded hs
    · exact .loaded hs rfl
    all_goals exact .ignored
  | finished r =>
    rw [receive_finished hs]
    exact .ignored

theorem mode_receive (w : World) (op : Operation) (a : Arrival) :
    (op.receive w a).2.mode = op.mode := by
  have h := step_receive w op a
  generalize op.receive w a = r at h
  cases h <;> rfl

/-- An operation looks up its execution first of all. -/
theorem eq_of_lookingUp {w : World} {op : Operation} {a : Arrival} {executionId : String}
    (h : (op.receive w a).2.stage = .lookingUp executionId) : (op.receive w a).2 = op := by
  have hstep := step_receive w op a
  generalize op.receive w a = r at hstep h
  cases hstep with
  | ignored | heard => rfl
  | ticketed | refused | resumed | dismissed | opened | loaded | unloaded | noticed | ended
  | lost => cases h

/-! ## Cancelled operations -/

/-- A refusal makes the panel idle, whether or not the operation still holds the panel. -/
theorem receive_refusal {w : World} {op : Operation} {a : Arrival} {e : Failure}
    (he : op.refusal? a = some e) :
    op.receive w a = (w.refuse op.mode e, op.finish (.error e)) := by
  unfold refusal? at he
  unfold receive
  split at he
  · rename_i hs
    obtain rfl := Option.some.inj he
    rw [hs]
  · rename_i hs
    obtain rfl := Option.some.inj he
    rw [hs]
  · cases he

/-- Once its token has been cancelled, an operation changes nothing that is shown unless it is
refused its ticket or its stream. -/
theorem studio_receive_of_cancelled {w : World} {op : Operation} {a : Arrival} {t : Token}
    (ht : op.token? = some t) (hc : w.isCancelled op.mode t = true) (he : op.refusal? a = none) :
    (op.receive w a).1.studio = w.studio := by
  have hlive : ∀ {u graphId executionId}, op.stage = .following u graphId executionId →
      w.isCancelled op.mode u = false → False := by
    intro u graphId executionId hs hu
    unfold token? at ht
    rw [hs] at ht
    obtain rfl := Option.some.inj ht
    rw [hc] at hu
    cases hu
  have hstep := step_receive w op a
  generalize op.receive w a = r at hstep
  cases hstep with
  | ignored | ticketed | opened | noticed | dismissed | unloaded => rfl
  | refused _ h =>
    rw [he] at h
    cases h
  | resumed hs | loaded hs =>
    unfold token? at ht
    rw [hs] at ht
    cases ht
  | heard hs hu | ended hs hu | lost hs hu => exact (hlive hs hu).elim

end Operation

end PromptStudio
