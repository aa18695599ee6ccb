import PromptStudio.Json.Decode

/-!
# Frames

A frame is one event of an event stream before its data is read: the name of the event, its data as
text, and the id the server may have given it.
-/

namespace PromptStudio

/-- One event of an event stream, its data not yet read. -/
structure Frame where
  event : String
  data : String
  id : Option String := none
deriving DecidableEq, Repr

namespace Frame

/-- Reads a frame. -/
def decode (src : Source) : Option Frame := do
  let fs ← src.fields? ["event", "data", "id"]
  return {
    event := ← fs.need "event" Source.text?
    data := ← fs.need "data" Source.text?
    id := ← fs.maybe "id" Source.text? }

/-- Writes a frame. -/
def encode (f : Frame) : Json :=
  .record [("event", some (.str f.event)), ("data", some (.str f.data)), ("id", f.id.map .str)]

end Frame

end PromptStudio
