import PromptStudio.Chat.Item

/-!
# Entries of a transcript

An entry is what the user wrote or what the assistant replied, in one of the two panels. A reply is
shown as loading until its first content, as progress while its build reports phases, and as a
message when it is finished.
-/

namespace PromptStudio

/-- Who wrote an entry. -/
inductive Role
  | user
  | assistant
deriving DecidableEq, Repr

namespace Role

/-- The name on the wire. -/
def tag : Role → String
  | .user => "user"
  | .assistant => "assistant"

/-- The role of a name. -/
def ofTag? : String → Option Role
  | "user" => some .user
  | "assistant" => some .assistant
  | _ => none

/-- Reads a role. -/
def decode (src : Source) : Option Role := (src.choice? .plain).bind ofTag?

/-- Writes a role. -/
def encode (r : Role) : Json := .str r.tag

end Role

/-- The two panels: one builds workflows, the other their websites. -/
inductive Mode
  | workflow
  | webCreator
deriving DecidableEq, Repr

namespace Mode

/-- The name on the wire. -/
def tag : Mode → String
  | .workflow => "workflow"
  | .webCreator => "webCreator"

/-- The mode of a name. -/
def ofTag? : String → Option Mode
  | "workflow" => some .workflow
  | "webCreator" => some .webCreator
  | _ => none

/-- Reads a mode. -/
def decode (src : Source) : Option Mode := (src.choice? .plain).bind ofTag?

/-- Writes a mode. -/
def encode (m : Mode) : Json := .str m.tag

end Mode

/-- How an entry is shown. -/
inductive EntryKind
  | loading
  | message
  | progress
deriving DecidableEq, Repr

namespace EntryKind

/-- The name on the wire. -/
def tag : EntryKind → String
  | .loading => "loading"
  | .message => "message"
  | .progress => "progress"

/-- The kind of a name. -/
def ofTag? : String → Option EntryKind
  | "loading" => some .loading
  | "message" => some .message
  | "progress" => some .progress
  | _ => none

/-- Reads a kind. -/
def decode (src : Source) : Option EntryKind := (src.choice? .plain).bind ofTag?

/-- Writes a kind. -/
def encode (k : EntryKind) : Json := .str k.tag

end EntryKind

/-- One entry of a transcript. -/
structure Entry where
  id : String
  kind : Option EntryKind
  role : Role
  content : List Item
  mode : Mode
  parent : Option String
  /-- Why the turn failed. -/
  error : Option String

namespace Entry

/-- What the user wrote. -/
def prompt (id itemId : String) (mode : Mode) (text : String) : Entry :=
  { id, kind := none, role := .user, content := [.text itemId text], mode, parent := none,
    error := none }

/-- A reply of which nothing has come yet. -/
def loading (id : String) (mode : Mode) : Entry :=
  { id, kind := some .loading, role := .assistant, content := [], mode, parent := none,
    error := none }

/-- Is shown as loading. -/
def isLoading (e : Entry) : Bool := e.kind = some .loading

/-- The texts of all text items, in order. -/
def text (e : Entry) : String := String.join (e.content.filterMap Item.text?)

/-- The items that are shown. -/
def visible (e : Entry) : List Item := e.content.filter Item.isVisible

/-- Reads an entry. -/
def decode (src : Source) : Option Entry := do
  let fs ← src.fields? ["id", "type", "role", "content", "mode", "parentId", "error"]
  return {
    id := ← fs.need "id" Source.text?
    kind := ← fs.maybe "type" EntryKind.decode
    role := ← fs.need "role" Role.decode
    content := ← fs.orElse "content" [] (Source.list? Item.decode)
    mode := ← fs.need "mode" Mode.decode
    parent := ← fs.maybe "parentId" Source.text?
    error := ← fs.maybe "error" Source.text? }

/-- Writes an entry. -/
def encode (e : Entry) : Json :=
  .record [("id", some (.str e.id)), ("type", e.kind.map EntryKind.encode),
    ("role", some e.role.encode), ("content", some (.arr (e.content.map Item.encode))),
    ("mode", some e.mode.encode), ("parentId", e.parent.map .str), ("error", e.error.map .str)]

end Entry

end PromptStudio
