import PromptStudio.Frame
import PromptStudio.Json.Reader
import PromptStudio.Text.Blank

/-!
# Families of stream events

The two event streams of the backend carry different families of events. What they have in common
is collected in `EventFamily`: a frame names the variant, and its data, an object, holds the
variant's fields. A frame that does not fit is no event.
-/

namespace PromptStudio

/-- A family of stream events. -/
class EventFamily (ε : Type) where
  /-- The names of the family's variants. -/
  vocabulary : List String
  /-- The event of a variant with these fields. -/
  ofVariant? : String → Source → Option ε
  /-- Renames fields that have an older spelling. -/
  modernize : String → List (String × Source) → List (String × Source)
  /-- The name of an event's variant. -/
  name : ε → String
  /-- Writes an event, its variant's name as its type. -/
  encode : ε → Json
  /-- Ends the stream. -/
  isTerminal : ε → Bool
  /-- Only shows that the stream is alive. -/
  isKeepalive : ε → Bool
  /-- Why the backend gave up, for an event that says so. -/
  failure? : ε → Option String

/-- The reason of an error event that gives none. -/
def unknownReason : String := "unknown error"

/-- The members of a frame's data, which is an object or blank. The name of the variant comes from
the frame alone, so a member `type` is dropped. -/
def Frame.members? (f : Frame) : Option (List (String × Source)) :=
  if f.data.toList.all Text.isBlank then some []
  else
    match (Value.ofText? f.data).map Value.source with
    | some (.obj members) => some (members.filter (·.1 != "type"))
    | _ => none

namespace EventFamily

variable {ε : Type} [EventFamily ε]

/-- The event of a frame, if it is one of the family. -/
def ofFrame? (f : Frame) : Option ε :=
  let name := Text.trim f.event
  if (vocabulary ε).contains name then
    f.members?.bind fun members => ofVariant? name (.obj (modernize ε name members))
  else none

/-- Reads an event that carries its own tag. -/
def decode (src : Source) : Option ε :=
  src.tagged?.bind fun t => ofVariant? t.1 t.2

end EventFamily

end PromptStudio
