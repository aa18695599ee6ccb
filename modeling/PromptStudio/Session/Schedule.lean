import PromptStudio.Session.Operation

/-!
# Schedules

Any number of operations of both panels, in any order: a schedule is a list of actions, each of
which issues an operation, stops a panel, or lets one operation make its step. Nothing is assumed of
the order in which the network answers. An action is done in one go, with nothing else in between; a
`Contention` also tells apart when an operation begins its step and when it gets the lock of the
studio.
-/

namespace PromptStudio

/-- All operations issued so far, in the order in which they were issued, and what they share. -/
structure System where
  world : World := {}
  operations : List Operation := []

/-- One thing that happens. -/
inductive Action
  /-- A prompt is sent. -/
  | send (mode : Mode) (workflowId : Option String) (text : String)
  /-- An earlier execution is to be followed again. -/
  | resume (mode : Mode) (workflowId : String)
  /-- A stored conversation is to be loaded. -/
  | load (workflowId : String)
  /-- A panel is stopped. -/
  | abort (mode : Mode)
  /-- Something arrives for the operation of this number. -/
  | arrive (n : Nat) (a : Arrival)

namespace System

/-- Adds an operation just issued. -/
def issue (s : System) (r : World × Operation) : System :=
  { world := r.1, operations := s.operations ++ [r.2] }

/-- What an action does. -/
def act (s : System) : Action → System
  | .send mode workflowId text => s.issue (s.world.send mode workflowId text)
  | .resume mode workflowId => s.issue (s.world.resume mode workflowId)
  | .load workflowId => s.issue (s.world.loadHistory workflowId)
  | .abort mode => { s with world := s.world.abort mode }
  | .arrive n a =>
    match s.operations[n]? with
    | some op =>
      let (world, op) := op.receive s.world a
      { world, operations := s.operations.set n op }
    | none => s

/-- Runs a schedule. -/
def run (s : System) (actions : List Action) : System := actions.foldl act s

end System

end PromptStudio
