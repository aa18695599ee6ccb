import PromptStudio.Proofs.Sse.Reading
import PromptStudio.Session.Operation

/-!
# Chunks do not show

The frames of a stream depend on its octets alone, however they are cut into chunks
(`push_flatten` for the decoder, `framesFrom_map_ok` for the stream, both by `push_append`). So the
frames that arrive with a body are those of its octets as one chunk (`Body.received`), and how the
body ends is one more arrival (`arrivalsOf_eq`).
-/

namespace PromptStudio

namespace Sse

namespace Decoder

/-- Pushes chunks one after another, and gives the frames that each of them completes. -/
def pushes (d : Decoder) : List (List UInt8) → List (List Frame) × Decoder
  | [] => ([], d)
  | bytes :: chunks =>
    let (frames, d) := d.push bytes
    let (rest, d) := d.pushes chunks
    (frames :: rest, d)

theorem pushes_cons (d : Decoder) (bytes : List UInt8) (chunks : List (List UInt8)) :
    d.pushes (bytes :: chunks) =
      ((d.push bytes).1 :: ((d.push bytes).2.pushes chunks).1,
        ((d.push bytes).2.pushes chunks).2) := rfl

/-- Pushing chunks one after another is pushing them as one. -/
theorem push_flatten (d : Decoder) (chunks : List (List UInt8)) :
    d.push chunks.flatten = ((d.pushes chunks).1.flatten, (d.pushes chunks).2) := by
  induction chunks generalizing d with
  | nil => rfl
  | cons bytes chunks ih =>
    rw [List.flatten_cons, push_append, ih, pushes_cons, List.flatten_cons]

theorem take_pushes (d : Decoder) (chunks : List (List UInt8)) (n : Nat) :
    (d.pushes chunks).1.take n = (d.pushes (chunks.take n)).1 := by
  induction n generalizing d chunks with
  | zero => rfl
  | succ n ih =>
    cases chunks with
    | nil => rfl
    | cons bytes chunks =>
      rw [List.take_succ_cons, pushes_cons, pushes_cons, List.take_succ_cons, ih]

end Decoder

theorem framesFrom_map_ok (d : Decoder) (chunks : List (List UInt8)) (tail : List Chunk) :
    framesFrom d (chunks.map .ok ++ tail) =
      (d.push chunks.flatten).1.map .ok ++ framesFrom (d.push chunks.flatten).2 tail := by
  induction chunks generalizing d with
  | nil => rfl
  | cons bytes chunks ih =>
    show (d.push bytes).1.map .ok ++ framesFrom (d.push bytes).2 (chunks.map .ok ++ tail) = _
    rw [ih, List.flatten_cons, Decoder.push_append, List.map_append, List.append_assoc]

/-- All frames of chunks pushed one after another. -/
theorem decode_flatten (chunks : List (List UInt8)) :
    (({} : Decoder).pushes chunks).1.flatten ++
      (({} : Decoder).pushes chunks).2.finish.toList = decode chunks.flatten := by
  rw [decode, Decoder.push_flatten]

/-- A stream that ends properly has all frames of its octets. -/
theorem frames_map_ok (chunks : List (List UInt8)) :
    frames (chunks.map .ok) = (decode chunks.flatten).map .ok := by
  have hframes := framesFrom_map_ok {} chunks []
  rw [List.append_nil] at hframes
  rw [frames, hframes, decode, List.map_append]
  rfl

/-- However octets are cut into chunks, the decoder gives the same frames: all of them at the end,
and after each chunk those of the octets up to there. A stream that ends properly has these frames.
One whose transport breaks has those completed before, then the failure and nothing else, whatever
the transport does afterwards; and a frame is complete only when an empty line has ended it. -/
theorem chunks_do_not_show (chunks : List (List UInt8)) :
    let d : Decoder := {}
    (d.pushes chunks).1.flatten ++ (d.pushes chunks).2.finish.toList = decode chunks.flatten ∧
      (∀ n, ((d.pushes chunks).1.take n).flatten = (d.push (chunks.take n).flatten).1) ∧
      frames (chunks.map .ok) = (decode chunks.flatten).map .ok ∧
      (∀ reason rest, frames (chunks.map .ok ++ .error reason :: rest) =
        (d.push chunks.flatten).1.map .ok ++ [.error (.dropped reason)]) ∧
      (d.push chunks.flatten).1 = reading (Text.lossy chunks.flatten) := by
  intro d
  refine ⟨decode_flatten chunks, fun n => ?_, frames_map_ok chunks, fun reason rest => ?_,
    Decoder.push_eq_reading _⟩
  · rw [Decoder.take_pushes, Decoder.push_flatten]
  · exact framesFrom_map_ok {} chunks (.error reason :: rest)

end Sse

namespace Body

/-- The frames of the octets received, in order. What is left of a last frame that no empty line
ends is one more only if the body was closed properly. -/
def received (b : Body) : List Frame :=
  let (frames, d) := ({} : Sse.Decoder).push b.chunks.flatten
  if b.ending = .closed then frames ++ d.finish.toList else frames

/-- How the body ends, as it arrives. -/
def last (b : Body) : Arrival :=
  match b.ending with
  | .closed => .closed
  | .cut => .broken (.dropped brokenBody)
  | .silent => .silence

end Body

namespace Operation

theorem arrivalsOf_eq (b : Body) :
    arrivalsOf b = b.received.map Arrival.frame ++ [b.last] := by
  obtain ⟨chunks, ending⟩ := b
  have hframes := Sse.framesFrom_map_ok {} chunks
  cases ending with
  | closed =>
    unfold arrivalsOf Body.frames Body.received
    dsimp only
    rw [Sse.frames_map_ok, Sse.decode]
    simp [Body.last, Function.comp_def]
  | cut =>
    unfold arrivalsOf Body.frames Body.received Sse.frames
    dsimp only
    rw [hframes]
    simp [Sse.framesFrom, Body.last, Function.comp_def]
  | silent =>
    unfold arrivalsOf Body.frames Body.received
    simp [Body.last, Function.comp_def]

/-- What arrives with a body depends on its octets and its ending alone. -/
theorem arrivalsOf_congr {b c : Body} (hoctets : b.chunks.flatten = c.chunks.flatten)
    (hending : b.ending = c.ending) : arrivalsOf b = arrivalsOf c := by
  rw [arrivalsOf_eq, arrivalsOf_eq]
  unfold Body.received Body.last
  rw [hoctets, hending]

end Operation

end PromptStudio
