import PromptStudio.Session.Schedule

/-!
# The lock of the studio

An action of a `System` is done in one go. What it does to the studio is done behind a lock, though,
and another operation may hold the lock: a prompt has then taken its panel over already, and is
recorded only when the lock is free. A `Contention` tells the two apart. `Operation.reach` is what
an operation does when something arrives, up to where it needs the lock, and `Operation.enter` what
it does once it has the lock. Nothing is assumed of the order in which the lock is given to those
who wait for it: an operation may be held up before it has joined their queue.
-/

namespace PromptStudio

/-- What an operation does with the studio while it has the lock. -/
inductive Section
  /-- It records its prompt. -/
  | record (text : String)
  /-- It marks its panel as busy, to follow an execution again. -/
  | mark
  /-- It gives up, as it has been refused its ticket or its stream. -/
  | refuse (e : Failure)
  /-- It replaces the transcript. -/
  | load (entries : List Entry)
  /-- It applies a frame of its stream. -/
  | apply (f : Frame)
  /-- Its stream has ended. -/
  | settle (o : Outcome)

namespace Operation

/-- The step of an operation when `a` arrives, up to where it needs the lock, and what it needs the
lock for. -/
def reach (w : World) (op : Operation) (a : Arrival) : (World × Operation) × Option Section :=
  match op.stage, a with
  | .submitting .., .ticket (.error e) => ((w, op), some (.refuse e))
  | .lookingUp executionId, .execution (.ok x) =>
    if x.status.isResumable then
      let (w, token) := w.takeOver op.mode
      ((w, { op with stage := .opening token x.graphId executionId }), some .mark)
    else ((w, op.finish (.ok none)), none)
  | .opening .., .opened (.error e) => ((w, op), some (.refuse e))
  | .loading _, .history (.ok entries) => ((w, op), some (.load entries))
  | .following token graphId executionId, a =>
    if w.isCancelled op.mode token then ((w, op.finishWith graphId executionId .aborted), none)
    else
      match a with
      | .frame f => ((w, op), some (.apply f))
      | .broken cause => ((w, op), some (.settle (.disconnected cause)))
      | .closed => ((w, op), some (.settle .ended))
      | .silence => ((w, op), some (.settle (.disconnected (.idle w.settings.idleSeconds))))
      | _ => ((w, op), none)
  | _, a => (op.receive w a, none)

/-- The token that the operation holds has been cancelled. -/
def isSuperseded (w : World) (op : Operation) : Bool := op.token?.any (w.isCancelled op.mode)

/-- What an operation does while it has the lock, and what it needs the lock for next. Only the
steps of a stream look at the token again: it may have been cancelled while the lock was held by
another operation. -/
def enter (w : World) (op : Operation) : Section → (World × Operation) × Option Section
  | .record text => ((w.onStudio (World.recordPrompt op.mode text), op), none)
  | .mark => ((w.onStudio (·.setStreaming op.mode true), op), none)
  | .refuse e => ((w.refuse op.mode e, op.finish (.error e)), none)
  | .load entries =>
    ((w.onStudio fun s => s.onPanel op.mode (·.load entries), op.finish (.ok none)), none)
  | .apply f =>
    let w := if op.isSuperseded w then w else w.onStudio (World.applyFrame op.mode f)
    ((w, op), (World.endOf? op.mode f).map .settle)
  | .settle o =>
    match op.stage with
    | .following _ graphId executionId =>
      ((if op.isSuperseded w then w else w.settle op.mode o,
        op.finishWith graphId executionId o), none)
    | _ => ((w, op), none)

end Operation

/-- The operations, what each of them waits for the lock for, and the panels that have been stopped
and still have to be cleared. -/
structure Contention where
  system : System := {}
  waiting : Nat → Option Section := fun _ => none
  stopping : List Mode := []

/-- One thing that happens. -/
inductive Move
  /-- An action, up to where it needs the lock. -/
  | act (x : Action)
  /-- The operation of this number gets the lock. -/
  | enter (n : Nat)
  /-- A stop of the panel gets the lock. -/
  | clear (mode : Mode)

namespace Contention

/-- The operation `n` has made a step, and waits for the lock or for the network after it. -/
def put (c : Contention) (n : Nat) (r : (World × Operation) × Option Section) : Contention :=
  { c with
    system := { world := r.1.1, operations := c.system.operations.set n r.1.2 }
    waiting := fun k => if k = n then r.2 else c.waiting k }

/-- What an action does up to where it needs the lock. Nothing arrives for an operation that waits
for the lock. -/
def act (c : Contention) : Action → Contention
  | .send mode workflowId text =>
    { c with
      system := c.system.issue (c.system.world.claim mode workflowId text)
      waiting := fun k =>
        if k = c.system.operations.length then some (.record text) else c.waiting k }
  | .abort mode =>
    { c with
      system := { c.system with world := c.system.world.stop mode }
      stopping := mode :: c.stopping }
  | .arrive n a =>
    match c.waiting n, c.system.operations[n]? with
    | none, some op => c.put n (op.reach c.system.world a)
    | _, _ => c
  | x => { c with system := c.system.act x }

/-- What the operation of a number does when it gets the lock. -/
def enter (c : Contention) (n : Nat) : Contention :=
  match c.waiting n, c.system.operations[n]? with
  | some part, some op => c.put n (op.enter c.system.world part)
  | _, _ => c

/-- What a stop of the panel does when it gets the lock. -/
def clear (c : Contention) (mode : Mode) : Contention :=
  if mode ∈ c.stopping then
    { c with
      system := { c.system with world := c.system.world.clear mode }
      stopping := c.stopping.erase mode }
  else c

/-- What happens next. -/
def move (c : Contention) : Move → Contention
  | .act x => c.act x
  | .enter n => c.enter n
  | .clear mode => c.clear mode

/-- Runs a sequence of moves. -/
def run (c : Contention) (moves : List Move) : Contention := moves.foldl move c

end Contention

end PromptStudio
