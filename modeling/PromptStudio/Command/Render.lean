import PromptStudio.Chat.Entry
import PromptStudio.Graph.Drawing
import PromptStudio.Number.Decimal
import PromptStudio.Workflow.Detail

/-!
# Listings

Transcripts and drawings as plain text, one item, node or edge on a line.
-/

namespace PromptStudio.Command

/-- `s` with blanks before it, at least `width` characters long. -/
def padLeft (width : Nat) (s : String) : String :=
  String.ofList (List.replicate (width - s.length) ' ' ++ s.toList)

/-- `s` with blanks behind it, at least `width` characters long. -/
def padRight (width : Nat) (s : String) : String :=
  String.ofList (s.toList ++ List.replicate (width - s.length) ' ')

/-- Lines, each ended by a line feed. -/
def unlines (lines : List String) : String := String.join (lines.map (· ++ "\n"))

/-! ## Transcripts -/

/-- What the state of a tool use is called. -/
def statusWord : Option ToolStatus → String
  | some .success => "ok"
  | some .error => "failed"
  | none => "running"

/-- The line of an item. -/
def itemLine : Item → String
  | .text _ words => "  " ++ words
  | .reasoning _ words => "  ~ " ++ words
  | .progress _ percent => "  [" ++ padLeft 3 (toString percent) ++ "%]"
  | .code _ change => "  " ++ change.action.tag ++ " " ++ change.path
  | .toolUse _ use => "  > " ++ use.tool ++ " (" ++ statusWord use.status ++ ")"
  | .preview _ link => "  preview: " ++ link.url
  | .log _ line => "  " ++ line

/-- Who wrote an entry. -/
def author : Role → String
  | .user => "[you]"
  | .assistant => "[studio]"

/-- The lines of an entry: its author, the items that are shown, and why it failed. -/
def entryLines (e : Entry) : List String :=
  author e.role :: e.visible.map itemLine ++ (e.error.map ("  ! " ++ ·)).toList

/-- A transcript as text. -/
def transcriptText (entries : List Entry) : String := unlines (entries.flatMap entryLines)

/-! ## Drawings -/

/-- The line of a node. -/
def nodeLine (n : Graph.DrawnNode Float) : String :=
  "  " ++ padRight 24 n.id ++ " " ++ padRight 9 n.kind.tag ++
    " x=" ++ padLeft 6 (positionalText n.position.x) ++
    " y=" ++ padLeft 6 (positionalText n.position.y) ++ (if n.isEntry then " *entry" else "")

/-- The line of an edge. -/
def edgeLine (e : Graph.DrawnEdge) : String := "  " ++ e.source ++ " -> " ++ e.target

/-- A drawn workflow as text. -/
def drawingText (w : Workflow) (d : Graph.Drawing Float) : String :=
  unlines ((w.name ++ " (" ++ w.id ++ ")") :: d.nodes.map nodeLine ++ d.edges.map edgeLine)

end PromptStudio.Command
