import PromptStudio.Backend.Script
import PromptStudio.Session.Drive

/-!
# Rehearsals

Operations that run in the background against a scripted backend. `Turn.step?` is the next thing
that happens to an operation: it sends its request, gets the reply once the gate is open, or takes
what comes next on its stream. A rehearsal can run a turn up to a moment of interest and later to
its end.
-/

namespace PromptStudio

/-- An operation, the reply on its way to it, and what its open stream still holds. -/
structure Turn where
  operation : Operation
  pending : Option Pending := none
  ahead : List Arrival := []

/-- What a rehearsal consists of: the world, the backend, the gates that are open, and the turns in
the background, the oldest first. -/
structure Rehearsal where
  world : World := {}
  script : Script := {}
  opened : List String := []
  turns : List Turn := []

/-- The backend and the world. -/
abbrev Scene := World × Script

namespace Turn

/-- The next thing that happens, unless the operation has finished or has to wait. -/
def step? (opened : List String) (scene : Scene) (t : Turn) : Option (Scene × Turn) :=
  let (world, script) := scene
  match t.operation.stage with
  | .finished _ => none
  | .following token _ _ =>
    match t.ahead with
    | a :: ahead =>
      let (world, operation) := t.operation.receive world a
      some ((world, script), { t with operation, ahead })
    | [] =>
      if world.isCancelled t.operation.mode token then
        let (world, operation) := t.operation.receive world .woken
        some ((world, script), { t with operation })
      else none
  | stage =>
    match t.pending with
    | none =>
      t.operation.request?.map fun request =>
        let (pending, script) := script.send world.settings request
        ((world, script), { t with pending := some pending })
    | some pending =>
      if pending.gate.all opened.contains then
        (t.operation.arrivalOf? pending.reply).map fun a =>
          let (world, operation) := t.operation.receive world a
          let ahead :=
            match stage, pending.reply with
            | .opening .., .answer _ body => Operation.arrivalsOf body
            | _, _ => []
          ((world, script), { operation, pending := none, ahead })
      else none

/-- Runs a turn until `stop` holds, it has finished, or it has to wait; tells whether `stop`
held. -/
def runUntil (stop : Scene → Bool) (opened : List String) :
    Nat → Scene → Turn → Scene × Turn × Bool
  | 0, scene, t => (scene, t, stop scene)
  | fuel + 1, scene, t =>
    if stop scene then (scene, t, true)
    else
      match t.step? opened scene with
      | some (scene, t) => runUntil stop opened fuel scene t
      | none => (scene, t, false)

end Turn

namespace Rehearsal

/-- Enough steps for every turn: its requests and replies, and all that a stream can hold. -/
def fuel (r : Rehearsal) : Nat :=
  let size := fun (s : ScriptedReply) =>
    s.answer.elim 0 fun a => (Operation.arrivalsOf a.2).length
  let ahead := r.turns.map fun t =>
    t.ahead.length + match t.pending with
      | some { reply := .answer _ body, .. } => (Operation.arrivalsOf body).length
      | _ => 0
  8 + (r.script.replies.map size ++ ahead).foldl (· + ·) 0

/-- Starts a turn in the background and runs it until `stop` holds; tells whether it held. -/
def start (r : Rehearsal) (stop : Scene → Bool) (issued : World × Operation) : Rehearsal × Bool :=
  let ((world, script), t, held) :=
    Turn.runUntil stop r.opened r.fuel (issued.1, r.script) { operation := issued.2 }
  ({ r with world, script, turns := r.turns ++ [t] }, held)

/-- Opens a gate. -/
def release (r : Rehearsal) (gate : String) : Rehearsal := { r with opened := gate :: r.opened }

/-- Runs the oldest turn to its end, and gives it up. -/
def join (r : Rehearsal) : Rehearsal × Option Operation :=
  match r.turns with
  | [] => (r, none)
  | t :: turns =>
    let ((world, script), t, _) :=
      Turn.runUntil (fun _ => false) r.opened r.fuel (r.world, r.script) t
    ({ r with world, script, turns }, some t.operation)

end Rehearsal

end PromptStudio
