import PromptStudio.Chat.Panel
import PromptStudio.Studio.Preview

/-!
# The studio

Everything a session holds in memory: both panels, the flag that a workflow is being built, the
preview pane with its history, and the notices the user has not seen yet.
-/

namespace PromptStudio

/-- Flags of the user interface. -/
structure Flags where
  /-- A workflow is being built. -/
  building : Bool := false
deriving DecidableEq, Repr

namespace Flags

/-- Reads flags. -/
def decode (src : Source) : Option Flags := do
  let fs ← src.fields? ["workflow_creating"]
  return { building := ← fs.need "workflow_creating" Source.bool? }

/-- Writes flags. -/
def encode (f : Flags) : Json := .obj [("workflow_creating", .bool f.building)]

end Flags

/-- Everything a session holds in memory. -/
structure Studio where
  workflow : Panel := { mode := .workflow }
  site : Panel := { mode := .webCreator }
  flags : Flags := {}
  preview : Preview := {}
  trail : Trail := {}
  /-- Notices not yet shown, the oldest first. -/
  notices : List String := []

namespace Studio

/-- The panel of a mode. -/
def panel (s : Studio) : Mode → Panel
  | .workflow => s.workflow
  | .webCreator => s.site

/-- Changes the panel of a mode. -/
def onPanel (s : Studio) (mode : Mode) (f : Panel → Panel) : Studio :=
  match mode with
  | .workflow => { s with workflow := f s.workflow }
  | .webCreator => { s with site := f s.site }

/-- Applies what a frame of a site's stream was read as, and keeps the preview pane in step. -/
def applySite? (s : Studio) (e : Option SiteEvent) : Studio × Bool :=
  let (site, changed) := s.site.applySite? e
  let s := { s with site }
  let s :=
    match e with
    | some (.start ..) => { s with preview := { s.preview with pending := true } }
    | some (.deployed url _) => { s with preview := s.preview.deployed url, trail := {} }
    | some e =>
      if e.isTerminal then { s with preview := { s.preview with pending := false } } else s
    | none => s
  (s, changed)

/-- Applies what a frame of a workflow's stream was read as. -/
def applyBuild? (s : Studio) (e : Option BuildEvent) : Studio × Bool :=
  let (workflow, changed) := s.workflow.applyBuild? e
  let s := { s with workflow }
  let s :=
    match e with
    | some (.start ..) => { s with flags := { building := true } }
    | some e => if e.isTerminal then { s with flags := { building := false } } else s
    | none => s
  (s, changed)

/-- Marks a panel as waiting for a stream, or as idle. -/
def setStreaming (s : Studio) (mode : Mode) (on : Bool) : Studio :=
  match mode with
  | .workflow => { s with flags := { building := on } }
  | .webCreator => { s with preview := { s.preview with pending := on } }

/-- The panel waits for a stream. -/
def isStreaming (s : Studio) : Mode → Bool
  | .workflow => s.flags.building
  | .webCreator => s.preview.pending

/-- Adds a notice. -/
def notify (s : Studio) (notice : String) : Studio := { s with notices := s.notices ++ [notice] }

/-- Takes the oldest notice. -/
def takeNotice (s : Studio) : Studio × Option String :=
  ({ s with notices := s.notices.tail }, s.notices.head?)

end Studio

end PromptStudio
