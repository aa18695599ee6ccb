import PromptStudio.Chat.Entry
import PromptStudio.Event.Build
import PromptStudio.Event.Site

/-!
# Panels

A panel is the transcript of one mode and the turn that events are applied to. It is a pure fold of
what happens: ids are handed out by counting, so the same events give the same transcript. Events
reach only the active turn, which a start event opens and a done or error event closes; `Draft` is
what they change of it.
-/

namespace PromptStudio

/-- The `n`th id handed out by a panel. -/
def idOf (mode : Mode) (n : Nat) : String :=
  (match mode with
    | .workflow => "wf"
    | .webCreator => "wc") ++ "-" ++ toString n

/-- How far a deployment has come at a stage, for the stages that are known. -/
def stagePercent? : String → Option Nat
  | "checking" => some 10
  | "installing" => some 40
  | "building" => some 70
  | "deploying" => some 90
  | "completed" | "done" | "deployed" => some 100
  | _ => none

/-! ## Drafts -/

/-- The items of a turn that is being streamed, and how many ids its panel has handed out. -/
structure Draft where
  mode : Mode
  items : List Item
  issued : Nat

/-- Changes the first element that satisfies `p`. -/
def mapFirst {α : Type} (p : α → Bool) (f : α → α) : List α → List α
  | [] => []
  | x :: xs => if p x then f x :: xs else x :: mapFirst p f xs

namespace Draft

/-- Adds an item with a new id. -/
def add (d : Draft) (make : String → Item) : Draft :=
  { d with items := d.items ++ [make (idOf d.mode (d.issued + 1))], issued := d.issued + 1 }

/-- Replaces the last item. -/
def setLast (d : Draft) (i : Item) : Draft := { d with items := d.items.dropLast ++ [i] }

/-- Adds to the reply's text: to the last item if it is text, else in a new item. -/
def appendText (d : Draft) (words : String) : Draft :=
  match d.items.getLast? with
  | some (.text id before) => d.setLast (.text id (before ++ words))
  | _ => d.add (.text · words)

/-- Is the use of the tool call `callId`. -/
def isUseOf (callId : String) : Item → Bool
  | .toolUse _ use => use.callId == callId
  | _ => false

/-- Changes a tool use. -/
def mapUse (f : ToolUse → ToolUse) : Item → Item
  | .toolUse id use => .toolUse id (f use)
  | i => i

/-- Changes the tool use of the call `callId`, if there is one. -/
def onUse (d : Draft) (callId : String) (f : ToolUse → ToolUse) : Draft :=
  { d with items := mapFirst (isUseOf callId) (mapUse f) d.items }

/-- Records a tool call. A call announced again keeps its item and its status. -/
def recordCall (d : Draft) (c : ToolCall) : Draft :=
  if d.items.any (isUseOf c.callId) then
    d.onUse c.callId fun use => { use with tool := c.tool, input := c.args }
  else
    d.add (.toolUse · { callId := c.callId, tool := c.tool, input := c.args, status := none })

/-- Shows progress: in the last item if it is progress, else in a new item. Without a percentage the
last one stays, and a new item starts at zero. -/
def setProgress (d : Draft) (percent : Option Nat) : Draft :=
  match d.items.getLast? with
  | some (.progress id before) => d.setLast (.progress id (percent.getD before))
  | _ => d.add (.progress · (percent.getD 0))

/-- Shows a phase: in the last item if it is reasoning, else in a new item. -/
def setReasoning (d : Draft) (words : String) : Draft :=
  match d.items.getLast? with
  | some (.reasoning id _) => d.setLast (.reasoning id words)
  | _ => d.add (.reasoning · words)

/-- Applies an event in the middle of a turn. -/
def applySite (d : Draft) : SiteEvent → Draft
  | .delta content => d.appendText content
  | .toolCall calls => calls.foldl recordCall d
  | .toolOutput callId status => d.onUse callId fun use => { use with status := some status }
  | .progress stage _ => d.setProgress (stagePercent? stage)
  | .log content => d.add (.log · content)
  | .deployed url message => d.add (.preview · { url, message })
  | .start .. | .ping .. | .done .. | .error .. => d

end Draft

/-! ## Panels -/

/-- The transcript of one mode and the turn being streamed. -/
structure Panel where
  mode : Mode
  entries : List Entry := []
  active : Option String := none
  issued : Nat := 0

/-- The position of the last element that satisfies `p`. -/
def lastIndex? {α : Type} (p : α → Bool) : List α → Option Nat
  | [] => none
  | x :: xs =>
    match lastIndex? p xs with
    | some i => some (i + 1)
    | none => if p x then some 0 else none

namespace Panel

/-- A turn is being streamed. -/
def isStreaming (p : Panel) : Bool := p.active.isSome

/-- The position of the active turn. -/
def activeIndex? (p : Panel) : Option Nat :=
  p.active.bind fun id => lastIndex? (·.id == id) p.entries

/-- Replaces the transcript by stored entries. -/
def load (p : Panel) (entries : List Entry) : Panel := { p with entries, active := none }

/-- Adds what the user wrote; also gives the entry's id. -/
def addPrompt (p : Panel) (text : String) : Panel × String :=
  let id := idOf p.mode (p.issued + 1)
  ({ p with
      entries := p.entries ++ [Entry.prompt id (idOf p.mode (p.issued + 2)) p.mode text]
      issued := p.issued + 2 }, id)

/-- Adds an empty reply for a later start event to take up; also gives its id. -/
def addLoading (p : Panel) : Panel × String :=
  let id := idOf p.mode (p.issued + 1)
  ({ p with entries := p.entries ++ [Entry.loading id p.mode], issued := p.issued + 1 }, id)

/-- Lets go of the active turn and leaves its content as it is. -/
def detach (p : Panel) : Panel := { p with active := none }

/-- Changes the active turn; tells whether there is one. -/
def onTurn (p : Panel) (change : Entry → Nat → Entry × Nat) : Panel × Bool :=
  match p.activeIndex? with
  | none => (p, false)
  | some i =>
    match p.entries[i]? with
    | none => (p, false)
    | some e =>
      let (e, issued) := change e p.issued
      ({ p with entries := p.entries.set i e, issued }, true)

/-- Changes the content of the active turn. -/
def onDraft (p : Panel) (change : Draft → Draft) : Panel × Bool :=
  p.onTurn fun e issued =>
    let d := change { mode := p.mode, items := e.content, issued }
    ({ e with content := d.items }, d.issued)

/-- Marks the active turn as finished. -/
def settle (p : Panel) : List Entry :=
  match p.activeIndex? with
  | some i => p.entries.modify i fun e => { e with kind := some .message }
  | none => p.entries

/-- An empty loading reply that no turn has taken up. -/
def isPlaceholder (active : Option String) (e : Entry) : Bool :=
  e.role = .assistant && e.isLoading && e.content.isEmpty && active != some e.id

/-- Opens a turn: takes up a placeholder at the end of the transcript, or adds a reply. A turn still
active is finished first. -/
def openTurn (p : Panel) : Panel :=
  let entries := p.settle
  match entries.getLast?.filter (isPlaceholder p.active) with
  | some e => { p with entries, active := some e.id }
  | none =>
    let id := idOf p.mode (p.issued + 1)
    { p with
      entries := entries ++ [Entry.loading id p.mode]
      active := some id
      issued := p.issued + 1 }

/-- Closes the active turn, with the reason if it failed; tells whether there was one. -/
def closeTurn (p : Panel) (failure : Option String) : Panel × Bool :=
  let (q, found) := p.onTurn fun e issued =>
    ({ e with kind := some .message, error := failure.or e.error }, issued)
  ({ q with active := none }, found)

/-- Applies an event of a site being built; tells whether it was taken up. -/
def applySite (p : Panel) (e : SiteEvent) : Panel × Bool :=
  match e with
  | .start .. => (p.openTurn, true)
  | .ping .. => (p, false)
  | .done .. | .error .. => p.closeTurn e.failure?
  | e => p.onDraft (·.applySite e)

/-- The words shown for a phase. -/
def phaseText (phase : String) : Option String → String
  | some message => if message.isEmpty then phase else phase ++ ": " ++ message
  | none => phase

/-- Applies an event of a workflow being built; tells whether it was taken up. -/
def applyBuild (p : Panel) (e : BuildEvent) : Panel × Bool :=
  match e with
  | .start .. => (p.openTurn, true)
  | .ping .. => (p, false)
  | .phase step message =>
    p.onTurn fun e issued =>
      let d := Draft.setReasoning { mode := p.mode, items := e.content, issued }
        (phaseText step message)
      ({ e with kind := some .progress, content := d.items }, d.issued)
  | .done .. | .error .. => p.closeTurn e.failure?

/-- Applies what a frame was read as; a frame that is no event changes nothing. -/
def applySite? (p : Panel) : Option SiteEvent → Panel × Bool
  | some e => p.applySite e
  | none => (p, false)

/-- Applies what a frame was read as; a frame that is no event changes nothing. -/
def applyBuild? (p : Panel) : Option BuildEvent → Panel × Bool
  | some e => p.applyBuild e
  | none => (p, false)

end Panel

end PromptStudio
