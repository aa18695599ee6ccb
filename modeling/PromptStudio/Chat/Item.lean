import PromptStudio.Event.Tool

/-!
# Items of a chat entry

An entry of a transcript is made of items: text, code, reasoning, progress, tool uses, build log
lines and links to deployed sites. Log lines are kept but never shown.
-/

namespace PromptStudio

/-- What is done to a file. -/
inductive CodeAction
  | write
  | replace
  | delete
deriving DecidableEq, Repr

namespace CodeAction

/-- The name on the wire. -/
def tag : CodeAction → String
  | .write => "code-write"
  | .replace => "code-replace"
  | .delete => "code-delete"

/-- The action of a name. -/
def ofTag? : String → Option CodeAction
  | "code-write" => some .write
  | "code-replace" => some .replace
  | "code-delete" => some .delete
  | _ => none

/-- Reads an action. -/
def decode (place : Source.Place) (src : Source) : Option CodeAction :=
  (src.choice? place).bind ofTag?

/-- Writes an action. -/
def encode (a : CodeAction) : Json := .str a.tag

end CodeAction

/-- A change to a file. -/
structure CodeChange where
  action : CodeAction
  path : String
  content : String
  /-- The text to be replaced. -/
  pattern : Option String
deriving DecidableEq, Repr

namespace CodeChange

/-- Reads a change. -/
def decode (place : Source.Place) (src : Source) : Option CodeChange := do
  let fs ← src.fields? ["type", "path", "content", "match"]
  return {
    action := ← fs.need "type" (CodeAction.decode place)
    path := ← fs.need "path" Source.text?
    content := ← fs.orElse "content" "" Source.text?
    pattern := ← fs.maybe "match" Source.text? }

/-- Writes a change. -/
def encode (c : CodeChange) : Json :=
  .record [("type", some c.action.encode), ("path", some (.str c.path)),
    ("content", some (.str c.content)), ("match", c.pattern.map .str)]

end CodeChange

/-- A tool call and what has become of it. -/
structure ToolUse where
  callId : String
  tool : String
  input : Value
  status : Option ToolStatus

namespace ToolUse

/-- Reads a tool use. -/
def decode (place : Source.Place) (src : Source) : Option ToolUse := do
  let fs ← src.fields? ["toolUseId", "name", "input", "status"]
  return {
    callId := ← fs.need "toolUseId" Source.text?
    tool := ← fs.need "name" Source.text?
    input := ← fs.orElse "input" .null Source.value?
    status := ← fs.maybe "status" (ToolStatus.decode place) }

/-- Writes a tool use. -/
def encode (u : ToolUse) : Json :=
  .record [("toolUseId", some (.str u.callId)), ("name", some (.str u.tool)),
    ("input", some u.input.json), ("status", u.status.map ToolStatus.encode)]

end ToolUse

/-- A link to a deployed site. -/
structure PreviewLink where
  url : String
  message : String
deriving DecidableEq, Repr

namespace PreviewLink

/-- Reads a link. -/
def decode (src : Source) : Option PreviewLink := do
  let fs ← src.fields? ["url", "message"]
  return {
    url := ← fs.need "url" Source.text?
    message := ← fs.orElse "message" "" Source.text? }

/-- Writes a link. -/
def encode (l : PreviewLink) : Json := .obj [("url", .str l.url), ("message", .str l.message)]

end PreviewLink

/-- One piece of an entry. Every item has an id of its own. -/
inductive Item
  | text (id text : String)
  | code (id : String) (change : CodeChange)
  | reasoning (id text : String)
  | progress (id : String) (percent : Nat)
  | toolUse (id : String) (use : ToolUse)
  | log (id line : String)
  | preview (id : String) (link : PreviewLink)

/-- A stored percentage, rounded to the nearest whole number, halves away from zero, and brought
between 0 and 100. -/
def percentOf : Number → Nat
  | .whole n => min n 100
  | .below _ => 0
  | .double x => min x.round.toUInt64.toNat 100

namespace Item

/-- The item's id. -/
def id : Item → String
  | .text id _ | .code id _ | .reasoning id _ | .progress id _ | .toolUse id _ | .log id _
  | .preview id _ => id

/-- Is shown to the user. -/
def isVisible : Item → Bool
  | .log .. => false
  | _ => true

/-- The text of a text item. -/
def text? : Item → Option String
  | .text _ words => some words
  | _ => none

/-- The tool use of a tool use item. -/
def toolUse? : Item → Option ToolUse
  | .toolUse _ use => some use
  | _ => none

/-- Reads a percentage. -/
def percent? : Source → Option Nat
  | .num n => some (percentOf n)
  | _ => none

/-- The item of a variant with these fields. -/
def ofVariant? (variant : String) (src : Source) : Option Item :=
  match variant with
  | "text" => do
    let fs ← src.fields? ["id", "text"]
    return .text (← fs.need "id" Source.text?) (← fs.need "text" Source.text?)
  | "code" => do
    let fs ← src.fields? ["id", "code"]
    return .code (← fs.need "id" Source.text?) (← fs.need "code" (CodeChange.decode .tagged))
  | "reasoning" => do
    let fs ← src.fields? ["id", "reasoning"]
    return .reasoning (← fs.need "id" Source.text?) (← fs.need "reasoning" Source.text?)
  | "progress" => do
    let fs ← src.fields? ["id", "progress"]
    return .progress (← fs.need "id" Source.text?) (← fs.need "progress" percent?)
  | "toolUse" => do
    let fs ← src.fields? ["id", "toolUse"]
    return .toolUse (← fs.need "id" Source.text?) (← fs.need "toolUse" (ToolUse.decode .tagged))
  | "log" => do
    let fs ← src.fields? ["id", "log"]
    return .log (← fs.need "id" Source.text?) (← fs.need "log" Source.text?)
  | "preview" => do
    let fs ← src.fields? ["id", "preview"]
    return .preview (← fs.need "id" Source.text?) (← fs.need "preview" PreviewLink.decode)
  | _ => none

/-- Reads an item. -/
def decode (src : Source) : Option Item := src.tagged?.bind fun t => ofVariant? t.1 t.2

/-- Writes an item. -/
def encode (i : Item) : Json :=
  let member : String × Json :=
    match i with
    | .text _ words => ("text", .str words)
    | .code _ change => ("code", change.encode)
    | .reasoning _ words => ("reasoning", .str words)
    | .progress _ percent => ("progress", .nat percent)
    | .toolUse _ use => ("toolUse", use.encode)
    | .log _ line => ("log", .str line)
    | .preview _ link => ("preview", link.encode)
  .obj [("type", .str member.1), ("id", .str i.id), member]

end Item

end PromptStudio
