import PromptStudio.Failure
import PromptStudio.Frame
import PromptStudio.Text.Blank
import PromptStudio.Text.Lossy

/-!
# Decoding event streams

An event stream is a sequence of lines; the lines of one frame are a block that an empty line ends.
`Block` collects the fields of a block, and `Decoder` holds a block and the unfinished line, so that
octets may come in chunks cut anywhere. The main statement is `push_append`: pushing two chunks is
pushing them as one.
-/

namespace PromptStudio.Sse

/-- The octet that ends a line. -/
def lineFeed : UInt8 := 0x0A

/-- The text of a line: its octets as text, without the carriage returns at its end. -/
def lineText (bs : List UInt8) : List Char := Text.dropEndWhile (· == '\r') (Text.lossy bs)

/-! ## Blocks -/

/-- The fields collected for a frame. -/
structure Block where
  event : Option String := none
  data : List String := []
  id : Option String := none
deriving DecidableEq, Repr

/-- The name and the value of a field: they are separated by the first colon, and one blank behind
it does not count. A line without a colon has an empty value. -/
def field (line : List Char) : List Char × List Char :=
  let name := line.takeWhile (· != ':')
  match line.drop name.length with
  | ':' :: ' ' :: value => (name, value)
  | _ :: value => (name, value)
  | [] => (name, [])

/-- Takes a line that is not empty. Comments, whose name is empty, and unknown fields are
skipped. -/
def Block.take (b : Block) (line : List Char) : Block :=
  let (name, value) := field line
  let value := String.ofList value
  if name = ['e', 'v', 'e', 'n', 't'] then { b with event := some value }
  else if name = ['d', 'a', 't', 'a'] then { b with data := b.data ++ [value] }
  else if name = ['i', 'd'] then { b with id := some value }
  else b

/-- The name of a frame whose block gives none. -/
def unnamed : String := "message"

/-- The frame of a block, if it has an event or data. -/
def Block.frame? (b : Block) : Option Frame :=
  if b.event.isNone && b.data.isEmpty then none
  else some { event := b.event.getD unnamed, data := "\n".intercalate b.data, id := b.id }

/-! ## The decoder -/

/-- A block and the octets of the unfinished line, the latest first. -/
structure Decoder where
  held : List UInt8 := []
  block : Block := {}
deriving DecidableEq, Repr

namespace Decoder

/-- Takes a whole line. An empty line ends the block. -/
def line (block : Block) (text : List Char) : Option Frame × Block :=
  if text.isEmpty then (block.frame?, {}) else (none, block.take text)

/-- Takes an octet, and gives the frame that it completes. -/
def octet (d : Decoder) (b : UInt8) : Option Frame × Decoder :=
  if b = lineFeed then
    let (frame, block) := line d.block (lineText d.held.reverse)
    (frame, { held := [], block })
  else (none, { d with held := b :: d.held })

/-- Takes a chunk, and gives the frames that it completes. -/
def push (d : Decoder) : List UInt8 → List Frame × Decoder
  | [] => ([], d)
  | b :: bs =>
    let (frame, d) := d.octet b
    let (frames, d) := d.push bs
    (frame.toList ++ frames, d)

/-- The frame left over when the stream has ended: the unfinished line counts as a line, and the
block as ended. -/
def finish (d : Decoder) : Option Frame :=
  if d.held.isEmpty then d.block.frame?
  else
    match line d.block (lineText d.held.reverse) with
    | (some frame, _) => some frame
    | (none, block) => block.frame?

@[simp] theorem push_nil (d : Decoder) : d.push [] = ([], d) := rfl

theorem push_cons (d : Decoder) (b : UInt8) (bs : List UInt8) :
    d.push (b :: bs) =
      ((d.octet b).1.toList ++ ((d.octet b).2.push bs).1, ((d.octet b).2.push bs).2) := rfl

/-- Pushing two chunks is pushing them as one. -/
theorem push_append (d : Decoder) (xs ys : List UInt8) :
    d.push (xs ++ ys) =
      ((d.push xs).1 ++ ((d.push xs).2.push ys).1, ((d.push xs).2.push ys).2) := by
  induction xs generalizing d with
  | nil => simp
  | cons x xs ih => simp [push_cons, ih]

end Decoder

/-! ## Streams -/

/-- A chunk of a stream, or the text of the error that broke the transport. -/
abbrev Chunk := Except String (List UInt8)

/-- The frames of the chunks that come after those `d` has taken. A broken transport ends the stream
and drops the unfinished frame. -/
def framesFrom (d : Decoder) : List Chunk → List (Except StreamFailure Frame)
  | [] => d.finish.toList.map .ok
  | .error reason :: _ => [.error (.dropped reason)]
  | .ok bytes :: chunks => (d.push bytes).1.map .ok ++ framesFrom (d.push bytes).2 chunks

/-- The frames of a stream. -/
def frames (chunks : List Chunk) : List (Except StreamFailure Frame) := framesFrom {} chunks

end PromptStudio.Sse
