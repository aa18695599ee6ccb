import PromptStudio.Event.Family
import PromptStudio.Stream.Outcome

/-!
# Following a stream

A stream is followed until a terminal event, its end, a failure, a cancellation, or a silence that
lasts longer than the idle timeout. Time passes only while the source pauses. Every frame ends a
silence, also one that is no event; keepalives and frames that are no event are not delivered.

A cancellation is noticed when the next frame is asked for, when the source lets others work, and
when a frame has come; it is not noticed between two steps of the source.
-/

namespace PromptStudio

/-- What the source of a stream does next. -/
inductive Beat
  /-- A frame comes. -/
  | frame (f : Frame)
  /-- The stream fails. -/
  | broken (cause : StreamFailure)
  /-- Nothing comes for so many milliseconds. -/
  | pause (ms : Nat)
  /-- Someone cancels. -/
  | cancel
  /-- Nothing comes any more. -/
  | silence
deriving DecidableEq, Repr

namespace Stream

variable {ε : Type} [EventFamily ε]

/-- The failure of a silence longer than `idle` milliseconds. -/
def idleFailure (idle : Nat) : Outcome := .disconnected (.idle (idle / 1000))

/-- Follows a source from where `delivered` events have been delivered, `gap` milliseconds have
passed since the last frame, and, if `cancelled`, someone has cancelled since the source was last
asked. `cancels n` tells whether the receiver of the `n`th event cancels. -/
def followFrom (idle : Nat) (cancels : Nat → Bool) (delivered gap : Nat) (cancelled : Bool) :
    List Beat → List ε × Outcome
  | [] => ([], .ended)
  | .broken cause :: _ => ([], .disconnected cause)
  | .cancel :: beats => followFrom idle cancels delivered gap true beats
  | .silence :: _ => ([], if cancelled && gap < idle then .aborted else idleFailure idle)
  | .pause ms :: beats =>
    if ms = 0 then followFrom idle cancels delivered gap cancelled beats
    else if cancelled && gap < idle then ([], .aborted)
    else if idle < gap + ms then ([], idleFailure idle)
    else followFrom idle cancels delivered (gap + ms) false beats
  | .frame f :: beats =>
    if cancelled then ([], .aborted)
    else
      match (EventFamily.ofFrame? f : Option ε) with
      | none => followFrom idle cancels delivered 0 false beats
      | some e =>
        if EventFamily.isKeepalive e then followFrom idle cancels delivered 0 false beats
        else if EventFamily.isTerminal e then ([e], .ofFailure (EventFamily.failure? e))
        else if cancels (delivered + 1) then ([e], .aborted)
        else
          let (es, outcome) := followFrom idle cancels (delivered + 1) 0 false beats
          (e :: es, outcome)

/-- Follows a source from its beginning: the events delivered, and the outcome. -/
def follow (idle : Nat) (cancels : Nat → Bool) (cancelled : Bool) (beats : List Beat) :
    List ε × Outcome :=
  if cancelled then ([], .aborted) else followFrom idle cancels 0 0 false beats

end Stream

end PromptStudio
