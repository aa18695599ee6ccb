import PromptStudio.Settings
import PromptStudio.Stream.Control
import PromptStudio.Stream.Outcome
import PromptStudio.Studio.State
import PromptStudio.Studio.Tasks

/-!
# What operations share

All operations of both panels work on one studio, one map of executions and, for each panel, the
control of its tokens. This module holds what they do to these: `takeOver` takes a panel over and
`stop` cancels what runs in it; everything else happens to the studio, behind its lock
(`recordPrompt` records a prompt, `refuse` gives up before a stream is open, `settle` is the end of
a stream, `clear` the end of a stop).
-/

namespace PromptStudio

/-- What all operations share. -/
structure World where
  settings : Settings := {}
  studio : Studio := {}
  tasks : Tasks := {}
  workflowControl : Control := {}
  siteControl : Control := {}

namespace World

/-- The tokens of a panel. -/
def control (w : World) : Mode → Control
  | .workflow => w.workflowControl
  | .webCreator => w.siteControl

/-- Replaces the tokens of a panel. -/
def withControl (w : World) (mode : Mode) (c : Control) : World :=
  match mode with
  | .workflow => { w with workflowControl := c }
  | .webCreator => { w with siteControl := c }

/-- Changes the studio. -/
def onStudio (w : World) (f : Studio → Studio) : World := { w with studio := f w.studio }

/-- The namespace of a panel's executions. -/
def space : Mode → String
  | .workflow => Tasks.workflowSpace
  | .webCreator => Tasks.siteSpace

/-- Takes a panel over: cancels the token held and hands out a new one. -/
def takeOver (w : World) (mode : Mode) : World × Token :=
  let (c, token) := (w.control mode).renew
  (w.withControl mode c, token)

/-- The token of an operation has been cancelled. -/
def isCancelled (w : World) (mode : Mode) (token : Token) : Bool :=
  (w.control mode).isCancelled token

/-- Records a prompt, and marks the panel as waiting. The panel that builds workflows also shows an
empty reply at once. -/
def recordPrompt (mode : Mode) (text : String) (s : Studio) : Studio :=
  let s := s.onPanel mode fun p =>
    let p := (p.detach.addPrompt text).1
    if mode = .workflow then p.addLoading.1 else p
  s.setStreaming mode true

/-- Gives up before a stream is open: the panel is idle, and a failure of the network is shown. -/
def refuse (w : World) (mode : Mode) (e : Failure) : World :=
  w.onStudio fun s =>
    let s := s.setStreaming mode false
    if e.isNetwork then s.notify ("Network error: " ++ e.message) else s

/-- Applies what a frame was read as to the panel of a mode. -/
def applyFrame (mode : Mode) (f : Frame) (s : Studio) : Studio :=
  match mode with
  | .workflow => (s.applyBuild? (EventFamily.ofFrame? f)).1
  | .webCreator => (s.applySite? (EventFamily.ofFrame? f)).1

/-- How a frame ends its stream, if it does. -/
def endOf? (mode : Mode) (f : Frame) : Option Outcome :=
  match mode with
  | .workflow => outcomeOf (EventFamily.ofFrame? f : Option BuildEvent)
  | .webCreator => outcomeOf (EventFamily.ofFrame? f : Option SiteEvent)
where
  /-- The outcome of a terminal event. -/
  outcomeOf {ε : Type} [EventFamily ε] : Option ε → Option Outcome
    | some e =>
      if EventFamily.isTerminal e then some (.ofFailure (EventFamily.failure? e)) else none
    | none => none

/-- The end of a stream whose token has not been cancelled: a lost connection is shown, a turn left
open is let go of, and the panel is idle. -/
def settle (w : World) (mode : Mode) (o : Outcome) : World :=
  w.onStudio fun s =>
    let s :=
      match o with
      | .disconnected cause => s.notify ("Connection lost: " ++ cause.message)
      | _ => s
    let s := if o.isInterrupted then s.onPanel mode Panel.detach else s
    s.setStreaming mode false

/-- Cancels whatever runs in a panel. -/
def stop (w : World) (mode : Mode) : World := w.withControl mode (w.control mode).abort.1

/-- Lets go of the turn of a panel, which keeps what it shows, and marks the panel as idle. -/
def clear (w : World) (mode : Mode) : World :=
  w.onStudio fun s => (s.onPanel mode Panel.detach).setStreaming mode false

/-- Stops whatever runs in a panel and keeps what it has produced. -/
def abort (w : World) (mode : Mode) : World := (w.stop mode).clear mode

end World

end PromptStudio
