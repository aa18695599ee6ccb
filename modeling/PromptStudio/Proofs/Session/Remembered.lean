import Mathlib.Data.List.Induction
import PromptStudio.Proofs.Session.Schedule
import PromptStudio.Proofs.Session.Step
import PromptStudio.Proofs.Studio.Tasks

/-!
# Which execution is remembered

An operation remembers its execution when its ticket arrives, whether or not it has been superseded
by then. `tickets` lists the tickets of a panel in the order of their arrival; `get?_run` says that
for each workflow the execution of the last of them is remembered. The order in which the prompts
were sent makes no difference to that.
-/

namespace PromptStudio

namespace Operation

/-- The ticket that an arrival brings an operation which has submitted its prompt. -/
def ticket? (op : Operation) (a : Arrival) : Option Ticket :=
  match op.stage, a with
  | .submitting .., .ticket (.ok t) => some t
  | _, _ => none

/-- A step remembers an execution only if it obtains a ticket. -/
theorem tasks_receive (w : World) (op : Operation) (a : Arrival) :
    (op.receive w a).1.tasks =
      match op.ticket? a with
      | some t => w.tasks.set (World.space op.mode) t.graphId t.executionId
      | none => w.tasks := by
  cases hs : op.stage with
  | submitting token workflowId text =>
    unfold receive ticket?
    rw [hs]
    rcases a with (e | t) | _ | _ | _ | _ | _ | _ | _ | _ <;> rfl
  | lookingUp _ | opening _ _ _ | following _ _ _ | loading _ | finished _ =>
    have hnone : op.ticket? a = none := by
      unfold ticket?
      rw [hs]
    have hstep := step_receive w op a
    rw [hnone]
    generalize op.receive w a = r at hstep
    cases hstep with
    | ticketed hs' =>
      rw [hs] at hs'
      cases hs'
    | resumed => simp
    | ignored | refused | dismissed | opened | loaded | unloaded | noticed | heard | ended
    | lost => rfl

end Operation

namespace System

variable {s : System} {mode : Mode} {x : Action}

/-- The ticket for a workflow that an action brings an operation of the panel, with the operation's
number. -/
def ticketAt? (s : System) (mode : Mode) (graphId : String) : Action → Option (Nat × Ticket)
  | .arrive n a => do
    let op ← s.operations[n]?
    let t ← op.ticket? a
    if op.mode = mode ∧ t.graphId = graphId then some (n, t) else none
  | _ => none

/-- The tickets for a workflow that the operations of the panel obtain in the course of a schedule,
in the order of their arrival. -/
def tickets (s : System) (mode : Mode) (graphId : String) (as : List Action) :
    List (Nat × Ticket) :=
  s.observed (fun s => s.ticketAt? mode graphId) as

theorem tickets_concat (s : System) (mode : Mode) (graphId : String) (as : List Action)
    (x : Action) :
    s.tickets mode graphId (as ++ [x]) =
      s.tickets mode graphId as ++ ((s.run as).ticketAt? mode graphId x).toList :=
  observed_concat _ s as x

/-- An action changes the execution remembered for a workflow of the panel only if it brings a
ticket for the workflow. -/
theorem get?_act (s : System) (mode : Mode) (graphId : String) (x : Action) :
    (s.act x).world.tasks.get? (World.space mode) graphId =
      ((s.ticketAt? mode graphId x).map (·.2.executionId)).or
        (s.world.tasks.get? (World.space mode) graphId) := by
  cases x with
  | send m workflowId text => simp [act, issue, World.send, ticketAt?]
  | resume m workflowId =>
    show (s.world.resume m workflowId).1.tasks.get? _ _ = _
    rw [Operation.fst_resume]
    rfl
  | load workflowId => rfl
  | abort m => simp [act, World.abort, ticketAt?]
  | arrive n a =>
    cases hop : s.operations[n]? with
    | none =>
      rw [act_arrive_none hop]
      simp [ticketAt?, hop]
    | some op =>
      rw [act_arrive hop, Operation.tasks_receive]
      cases ht : op.ticket? a with
      | none => simp [ticketAt?, hop, ht]
      | some t =>
        dsimp only
        rw [Tasks.get?_set]
        by_cases hkey : op.mode = mode ∧ t.graphId = graphId
        · obtain ⟨rfl, rfl⟩ := hkey
          simp [ticketAt?, hop, ht]
        · rw [if_neg fun e => hkey ((World.key_space_inj.mp e).imp Eq.symm Eq.symm)]
          simp [ticketAt?, hop, ht, hkey]

/-- For each workflow the execution of the ticket that arrived last is remembered. -/
theorem get?_run (s : System) (mode : Mode) (graphId : String) (as : List Action) :
    (s.run as).world.tasks.get? (World.space mode) graphId =
      ((s.tickets mode graphId as).getLast?.map (·.2.executionId)).or
        (s.world.tasks.get? (World.space mode) graphId) := by
  induction as using List.reverseRecOn with
  | nil => rfl
  | append_singleton as x ih =>
    rw [run_concat, get?_act, ih, tickets_concat, List.getLast?_append]
    cases (s.run as).ticketAt? mode graphId x <;> rfl

/-- Which of several overlapping prompts is remembered. For each workflow of a panel that is the one
whose ticket arrived last, and a resume asks for its execution. So a prompt, be it the newest, is
remembered exactly if no ticket for the workflow has arrived after its own, provided that no other
ticket names the same execution. -/
theorem remembered_iff_last (settings : Settings) (studio : Studio) (tasks : Tasks)
    (actions : List Action) (mode : Mode) (graphId : String) :
    let start := new settings studio tasks
    let s := start.run actions
    let obtained := start.tickets mode graphId actions
    s.world.tasks.get? (World.space mode) graphId =
        (obtained.getLast?.map (·.2.executionId)).or
          (tasks.get? (World.space mode) graphId) ∧
      (∀ last, obtained.getLast? = some last →
        (s.world.resume mode graphId).2.stage = .lookingUp last.2.executionId) ∧
      ∀ p ∈ obtained, (∀ q ∈ obtained, q.2.executionId = p.2.executionId → q = p) →
        (s.world.tasks.get? (World.space mode) graphId = some p.2.executionId ↔
          obtained.getLast? = some p) := by
  intro start s obtained
  have hremembered : s.world.tasks.get? (World.space mode) graphId =
      (obtained.getLast?.map (·.2.executionId)).or (tasks.get? (World.space mode) graphId) :=
    get?_run start mode graphId actions
  refine ⟨hremembered, fun last hlast => ?_, fun p hp hdistinct => ?_⟩
  · rw [hlast] at hremembered
    unfold World.resume
    rw [hremembered]
    rfl
  · rw [hremembered]
    cases hlast : obtained.getLast? with
    | none =>
      rw [List.getLast?_eq_none_iff.mp hlast] at hp
      cases hp
    | some last =>
      have hmem : last ∈ obtained := List.mem_of_getLast? hlast
      constructor
      · intro h
        exact congrArg some (hdistinct last hmem (Option.some.inj h))
      · intro h
        rw [Option.some.inj h]
        rfl

/-- The ticket of the first of two prompts arrives after that of the second, which has superseded
it: the first is remembered. -/
theorem superseded_remembered :
    let start := new {} {} {}
    let actions : List Action :=
      [.send .webCreator (some "g1") "first", .send .webCreator (some "g1") "second",
        .arrive 1 (.ticket (.ok ⟨"s2", "e2", "g1"⟩)), .arrive 0 (.ticket (.ok ⟨"s1", "e1", "g1"⟩))]
    let s := start.run actions
    start.tickets .webCreator "g1" actions = [(1, ⟨"s2", "e2", "g1"⟩), (0, ⟨"s1", "e1", "g1"⟩)] ∧
      s.world.isCancelled .webCreator 0 = true ∧ s.world.isCancelled .webCreator 1 = false ∧
      s.world.tasks.get? (World.space .webCreator) "g1" = some "e1" ∧
      (s.world.resume .webCreator "g1").2.stage = .lookingUp "e1" := by
  refine ⟨rfl, rfl, rfl, rfl, rfl⟩

/-- The same two prompts in the other panel: the newer one is not remembered, since its ticket has
not arrived last. -/
theorem remembered_iff_last_newer :
    let start := new {} {} {}
    let actions : List Action :=
      [.send .workflow none "first", .send .workflow none "second",
        .arrive 1 (.ticket (.ok ⟨"s2", "e2", "g1"⟩)), .arrive 0 (.ticket (.ok ⟨"s1", "e1", "g1"⟩))]
    let s := start.run actions
    let obtained := start.tickets .workflow "g1" actions
    (obtained.getLast? = some (0, ⟨"s1", "e1", "g1"⟩) ∧
        (s.world.resume .workflow "g1").2.stage = .lookingUp "e1") ∧
      (1, ⟨"s2", "e2", "g1"⟩) ∈ obtained ∧
      s.world.tasks.get? (World.space .workflow) "g1" ≠ some "e2" := by
  intro start actions s obtained
  have hobtained : obtained = [(1, ⟨"s2", "e2", "g1"⟩), (0, ⟨"s1", "e1", "g1"⟩)] := rfl
  obtain ⟨_, hresume, hiff⟩ := remembered_iff_last {} {} {} actions .workflow "g1"
  have hmem : (1, ⟨"s2", "e2", "g1"⟩) ∈ obtained := by simp [hobtained]
  have hnewer := hiff (1, ⟨"s2", "e2", "g1"⟩) hmem
  refine ⟨⟨rfl, hresume (0, ⟨"s1", "e1", "g1"⟩) rfl⟩, hmem, fun h => ?_⟩
  have hlast := (hnewer fun q hq he => ?_).mp h
  · cases hlast
  · have hq' : q ∈ [(1, (⟨"s2", "e2", "g1"⟩ : Ticket)), (0, ⟨"s1", "e1", "g1"⟩)] := hobtained ▸ hq
    rcases List.mem_pair.mp hq' with rfl | rfl
    · rfl
    · exact absurd he (by decide)

end System

end PromptStudio
