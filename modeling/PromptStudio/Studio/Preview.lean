import PromptStudio.Json.Decode
import PromptStudio.Text.Blank

/-!
# The preview pane

The pane shows the deployed site of a workflow. `Preview` is what it shows, `Trail` its navigation
history: a position among the pages visited, of which only the number matters.
-/

namespace PromptStudio

/-- The address at which the site of a workflow is served. -/
def previewAddress (base workflowId : String) : String :=
  Text.trimEndSlashes base ++ "/preview/" ++ workflowId

/-- The tab of the pane. -/
inductive PreviewTab
  | preview
  | phone
deriving DecidableEq, Repr

namespace PreviewTab

/-- The name on the wire. -/
def tag : PreviewTab → String
  | .preview => "preview"
  | .phone => "phone"

/-- The tab of a name. -/
def ofTag? : String → Option PreviewTab
  | "preview" => some .preview
  | "phone" => some .phone
  | _ => none

/-- Reads a tab. -/
def decode (src : Source) : Option PreviewTab := (src.choice? .plain).bind ofTag?

/-- Writes a tab. -/
def encode (t : PreviewTab) : Json := .str t.tag

end PreviewTab

/-- What the pane shows. -/
structure Preview where
  tab : PreviewTab := .preview
  /-- A stream is at work on the site. -/
  pending : Bool := false
  url : String := ""
  title : String := ""
  /-- Grows whenever the page has to be loaded again. -/
  reloads : Nat := 0
deriving DecidableEq, Repr

namespace Preview

/-- Loads the page again. -/
def reload (p : Preview) : Preview := { p with reloads := p.reloads + 1 }

/-- Shows a new deployment. -/
def deployed (p : Preview) (url : String) : Preview := { p with url }.reload

/-- Reads what the pane shows. -/
def decode (src : Source) : Option Preview := do
  let fs ← src.fields? ["tab", "pending", "url", "title", "reload_index"]
  return {
    tab := ← fs.need "tab" PreviewTab.decode
    pending := ← fs.need "pending" Source.bool?
    url := ← fs.need "url" Source.text?
    title := ← fs.need "title" Source.text?
    reloads := ← fs.need "reload_index" Source.nat64? }

/-- Writes what the pane shows. -/
def encode (p : Preview) : Json :=
  .obj [("tab", p.tab.encode), ("pending", .bool p.pending), ("url", .str p.url),
    ("title", .str p.title), ("reload_index", .nat p.reloads)]

end Preview

/-- A position among the pages visited: `index` pages lie before the current one, and `count` is the
number of the last one. -/
structure Trail where
  index : Nat := 0
  count : Nat := 0
deriving DecidableEq, Repr

namespace Trail

/-- Visits a new page; the pages after the current one are forgotten. -/
def add (t : Trail) : Trail := { index := t.index + 1, count := t.index + 1 }

/-- Goes to a page, at most to the last one. -/
def goTo (t : Trail) (index : Nat) : Trail := { t with index := min index t.count }

/-- There is a page before the current one. -/
def canBack (t : Trail) : Bool := 0 < t.index

/-- There is a page after the current one. -/
def canForward (t : Trail) : Bool := t.index < t.count

/-- Goes back, if possible. -/
def back (t : Trail) : Trail × Bool :=
  if t.canBack then ({ t with index := t.index - 1 }, true) else (t, false)

/-- Goes forward, if possible. -/
def forward (t : Trail) : Trail × Bool :=
  if t.canForward then ({ t with index := t.index + 1 }, true) else (t, false)

end Trail

end PromptStudio
