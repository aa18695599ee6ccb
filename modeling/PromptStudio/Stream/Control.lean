/-!
# Control of a panel's streams

Each operation of a panel that follows a stream holds a token. `Control` keeps the state of every
token handed out and which of them is current, so that beginning an operation cancels the one
before it.
-/

namespace PromptStudio

/-- The number of a token. -/
abbrev Token := Nat

/-- The tokens of a panel: whether each is cancelled, in the order in which they were handed out,
and the one held for the running operation. -/
structure Control where
  cancelled : List Bool := []
  current : Option Token := none
deriving DecidableEq, Repr

namespace Control

/-- The token has been cancelled. -/
def isCancelled (c : Control) (t : Token) : Bool := c.cancelled.getD t false

/-- Cancels a token. -/
def cancel (c : Control) (t : Token) : Control := { c with cancelled := c.cancelled.set t true }

/-- Hands out a new token and cancels the one held before. -/
def renew (c : Control) : Control × Token :=
  let before := c.current.elim c c.cancel
  ({ cancelled := before.cancelled ++ [false], current := some c.cancelled.length },
    c.cancelled.length)

/-- A token is held and not cancelled. -/
def isActive (c : Control) : Bool := c.current.any fun t => !c.isCancelled t

/-- Cancels the token held and lets go of it; tells whether it was still live. -/
def abort (c : Control) : Control × Bool :=
  ({ c.current.elim c c.cancel with current := none }, c.isActive)

end Control

end PromptStudio
