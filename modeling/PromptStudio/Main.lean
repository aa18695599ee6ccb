import PromptStudio.Backend.Script
import PromptStudio.Backend.Wire
import PromptStudio.Command.Run
import Std.Async.DNS
import Std.Async.TCP
import Std.Async.Timer

/-!
# The command

The outer layer of the command: it reads the arguments and the environment, carries requests over
connections of its own, and prints. What is sent, and what replies mean, is decided elsewhere.
-/

namespace PromptStudio.Network

open Std.Async Std.Net

/-- Connects to the server of an address; the first of its hosts that answers is taken. -/
def connect (u : Url) : Async TCP.Socket.Client := do
  let port := u.port.getD 80
  let host := String.ofList ((u.host.getD "").toList.filter fun c => c != '[' && c != ']')
  let hosts ← DNS.getAddrInfo host (toString port)
  go (UInt16.ofNat port) hosts.toList
where
  go (port : UInt16) : List IPAddr → Async TCP.Socket.Client
    | [] => throw (.userError "no host answers")
    | host :: hosts => do
      let address : SocketAddress :=
        match host with
        | .v4 addr => .v4 { addr, port }
        | .v6 addr => .v6 { addr, port }
      try
        let socket ← TCP.Socket.Client.mk
        socket.connect address
        return socket
      catch _ => go port hosts

/-- What a connection does next. -/
inductive Signal
  | octets (bs : List UInt8)
  | closed
  | late

/-- Waits for a connection, at most so many milliseconds. -/
def next (socket : TCP.Socket.Client) (limit : Nat) : Async Signal := do
  try
    Selectable.one #[
      .case (socket.recvSelector 65536) fun
        | some bs => return .octets bs.toList
        | none => return .closed,
      .case (← Selector.sleep (.ofNat limit)) fun _ => return .late]
  catch _ => return .closed

/-- What has come ends a stream: nothing behind it matters. -/
def isDecided (frames : List Frame) : Bool :=
  frames.any fun f =>
    (World.endOf? .workflow f).isSome && (World.endOf? .webCreator f).isSome

/-- The longest wait where the settings set no limit: a day. -/
def patience : Nat := 24 * 60 * 60 * 1000

/-- Reads a reply. `seen` counts the frames that have come behind the head of an event stream, and
`since` is when the latest of them came; for any other reply it is when the wait began. Nothing
limits the wait for an event stream and for the reason why there is none. -/
partial def gather (s : Settings) (r : Request) (lost : Reply) (socket : TCP.Socket.Client)
    (received : List UInt8) (since : Nat) (seen : Option Nat) : Async Reply := do
  let limit :=
    if !r.eventStream then s.requestTimeout else if seen.isSome then s.idleTimeout else patience
  match ← next socket (limit - ((← IO.monoMsNow) - since)) with
  | .closed => return (Wire.Arriving.ofOctets? received true).elim lost (·.reply .cut)
  | .late =>
    let ending := if r.eventStream then Ending.silent else .cut
    return (Wire.Arriving.ofOctets? received false).elim lost (·.reply ending)
  | .octets bs =>
    let received := received ++ bs
    match Wire.Arriving.ofOctets? received false with
    | none => gather s r lost socket received since seen
    | some a =>
      let isStream := r.eventStream && 200 ≤ a.status && a.status < 300
      let frames := if isStream then a.frames else []
      if a.isComplete || isDecided frames || r.eventStream && a.status = 404 then
        return { a with isComplete := true }.reply .closed
      else if isStream && seen ≠ some frames.length then
        gather s r lost socket received (← IO.monoMsNow) (some frames.length)
      else gather s r lost socket received since seen

/-- Sends a request and waits for the reply. Only plain connections are made. -/
def exchange (s : Settings) (r : Request) : IO Reply := do
  let address := r.address s
  match unusableAddress address, Url.parse? address with
  | some reason, _ => return .lost reason
  | none, none => return .lost "builder error"
  | none, some u =>
    let lost := Reply.lost (noAnswer u)
    if u.scheme ≠ "http" then return lost
    else
      try
        Async.block do
          let socket ← connect u
          socket.send ⟨(Wire.requestOctets u r).toArray⟩
          gather s r lost socket [] (← IO.monoMsNow) none
      catch _ => return lost

/-- The variables that the command looks at. -/
def variableNames : List String :=
  ["STUDIO_API_URL", "STUDIO_PREVIEW_URL", "STUDIO_IDLE_TIMEOUT_SECS",
    "STUDIO_REQUEST_TIMEOUT_SECS"]

end PromptStudio.Network

open PromptStudio in
/-- Runs the command. -/
def main (args : List String) : IO UInt32 := do
  let env ← Network.variableNames.filterMapM fun name => do
    return (← IO.getEnv name).map (name, ·)
  let e ← Command.run Network.exchange (List.lookup · env) args
  IO.print e.printed.output
  e.printed.notices.forM fun notice => IO.eprintln notice
  if let some failure := e.failure then IO.eprintln ("Error: " ++ failure.message)
  if e.isMisused then IO.eprint Command.helpText
  return UInt32.ofNat e.code
