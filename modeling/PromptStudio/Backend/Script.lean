import PromptStudio.Backend.Reply
import PromptStudio.Backend.Request

/-!
# Scripted backends

A backend that answers from a list, one reply for each request that reaches it, and remembers the
requests. Only requests with a usable address are sent; without a connection none reaches the
backend. A reply may wait behind a gate until the gate is opened.
-/

namespace PromptStudio

/-- A reply in a script. -/
structure ScriptedReply where
  /-- The answer; without one the connection is closed. -/
  answer : Option (Nat × Body)
  /-- The gate behind which the reply waits. -/
  gate : Option String := none

/-- A request as the backend received it. -/
structure Received where
  method : Method
  target : String
  eventStream : Bool
  body : Option Json

/-- A scripted backend and what it has received. -/
structure Script where
  /-- There is a connection to the backend. -/
  connected : Bool := true
  replies : List ScriptedReply := []
  received : List Received := []

/-- A reply on its way, and the gate it waits behind. -/
structure Pending where
  reply : Reply
  gate : Option String := none

/-- The transport's reason for an address that cannot be used. -/
def unusableAddress (address : String) : Option String :=
  match Url.parse? address with
  | none => some "builder error"
  | some u => if u.isWeb then none else some ("builder error for url (" ++ u.text ++ ")")

/-- The transport's reason for a request that gets no answer. -/
def noAnswer (u : Url) : String := "error sending request for url (" ++ u.text ++ ")"

namespace Script

/-- The answer to requests for which the script has none. -/
def exhausted : ScriptedReply :=
  { answer := some (500, { chunks := [Text.octets "no scripted response"], ending := .closed }) }

/-- Sends a request. -/
def send (settings : Settings) (request : Request) (s : Script) : Pending × Script :=
  let address := request.address settings
  match unusableAddress address, Url.parse? address with
  | some reason, _ => ({ reply := .lost reason }, s)
  | none, none => ({ reply := .lost "builder error" }, s)
  | none, some u =>
    if s.connected then
      let scripted := s.replies.headD exhausted
      let reply :=
        match scripted.answer with
        | some (status, body) => Reply.answer status body
        | none => .lost (noAnswer u)
      let received : Received :=
        { method := request.method, target := u.target, eventStream := request.eventStream,
          body := request.body }
      ({ reply, gate := scripted.gate },
        { s with replies := s.replies.tail, received := s.received ++ [received] })
    else ({ reply := .lost (noAnswer u) }, s)

/-- Sends a request and waits for the reply, whatever gate it waits behind. -/
def exchange (settings : Settings) (request : Request) : StateM Script Reply := fun s =>
  let (pending, s) := s.send settings request
  (pending.reply, s)

end Script

end PromptStudio
