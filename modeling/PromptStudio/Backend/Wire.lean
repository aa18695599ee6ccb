import PromptStudio.Backend.Reply
import PromptStudio.Backend.Request
import PromptStudio.Backend.Url
import PromptStudio.Json.Writer

/-!
# Messages on the wire

Requests and replies as octets on a connection that serves one request. `requestOctets` writes a
request. `Arriving.ofOctets?` reads what has come of a reply so far: its status, and as much of its
body as the way in which the body is framed lets one tell.
-/

namespace PromptStudio.Wire

/-! ## Requests -/

/-- The line end of a head. -/
def lineEnd : String := "\r\n"

/-- The host and the port of an address as they stand in a head. -/
def hostText (u : Url) : String := u.host.getD "" ++ u.port.elim "" (":" ++ toString ·)

/-- The lines of a request's head. -/
def requestLines (u : Url) (r : Request) (body : Option (List UInt8)) : List String :=
  [r.method.name ++ " " ++ u.target ++ " HTTP/1.1", "host: " ++ hostText u,
    "accept: " ++ (if r.eventStream then "text/event-stream" else "*/*"), "connection: close"] ++
  match body with
  | some octets =>
    ["content-type: application/json", "content-length: " ++ toString octets.length]
  | none => []

/-- The octets of a request. -/
def requestOctets (u : Url) (r : Request) : List UInt8 :=
  let body := r.body.map fun j => Text.octets j.compact
  let head := String.join ((requestLines u r body).map (· ++ lineEnd)) ++ lineEnd
  Text.octets head ++ body.getD []

/-! ## Lines -/

/-- The octets before the first line end, and those behind it. -/
def line? : List UInt8 → Option (List UInt8 × List UInt8)
  | 0x0D :: 0x0A :: rest => some ([], rest)
  | b :: rest => (line? rest).map fun r => (b :: r.1, r.2)
  | [] => none

/-- The octets of a line as characters in lower case. -/
def lowered (line : List UInt8) : List Char := line.map fun b => (Char.ofNat b.toNat).toLower

/-- A number in the digits of a base. -/
def number? (base : Nat) (digits : List Char) : Option Nat :=
  if digits.isEmpty then none
  else
    digits.foldlM (fun n c => do
      let d ← if c.isDigit then some (c.toNat - 0x30)
        else if 'a' ≤ c && c ≤ 'f' then some (c.toNat - 0x57)
        else none
      if d < base then some (n * base + d) else none) 0

/-- Without blanks at both ends. -/
def trimmed (cs : List Char) : List Char :=
  let isBlank := fun (c : Char) => c == ' ' || c == '\t'
  ((cs.dropWhile isBlank).reverse.dropWhile isBlank).reverse

/-! ## Heads -/

/-- How the end of a body is told. -/
inductive Framing
  /-- It has this many octets. -/
  | sized (n : Nat)
  /-- It comes in chunks, each with its size in front of it. -/
  | chunked
  /-- The connection is closed behind it. -/
  | untilClosed
deriving DecidableEq, Repr

/-- The head of a reply. -/
structure Head where
  status : Nat
  framing : Framing
deriving DecidableEq, Repr

/-- The status in the first line of a reply. -/
def status? (line : List UInt8) : Option Nat :=
  match (lowered line).dropWhile (· != ' ') with
  | _ :: rest => number? 10 (rest.takeWhile (· != ' '))
  | [] => none

/-- The framing after one more field of a head. Chunks come before a size. -/
def Framing.after (f : Framing) (line : List UInt8) : Framing :=
  let text := lowered line
  let name := text.takeWhile (· != ':')
  let value := trimmed (text.dropWhile (· != ':')).tail
  if name = "transfer-encoding".toList && value = "chunked".toList then .chunked
  else if name = "content-length".toList && f ≠ .chunked then
    (number? 10 value).elim f .sized
  else f

/-- Reads the fields of a head up to the empty line behind them. -/
def fields? : Nat → Framing → List UInt8 → Option (Framing × List UInt8)
  | 0, _, _ => none
  | fuel + 1, f, octets =>
    match line? octets with
    | some ([], rest) => some (f, rest)
    | some (line, rest) => fields? fuel (f.after line) rest
    | none => none

/-- Reads a head. -/
def head? (octets : List UInt8) : Option (Head × List UInt8) := do
  let (first, rest) ← line? octets
  let status ← status? first
  let (framing, rest) ← fields? octets.length .untilClosed rest
  let framing := if status = 204 || status = 304 then .sized 0 else framing
  return ({ status, framing }, rest)

/-! ## Bodies -/

/-- The octets of a body in chunks that have come, and whether the last chunk has. -/
def unchunk : Nat → List UInt8 → List UInt8 × Bool
  | 0, _ => ([], false)
  | fuel + 1, octets =>
    match line? octets with
    | none => ([], false)
    | some (line, rest) =>
      match number? 16 (trimmed ((lowered line).takeWhile (· != ';'))) with
      | none => ([], false)
      | some 0 => ([], true)
      | some n =>
        let (more, isComplete) := unchunk fuel (rest.drop (n + 2))
        (rest.take n ++ more, isComplete)

/-- A reply as far as it has come. -/
structure Arriving where
  status : Nat
  octets : List UInt8
  isComplete : Bool
deriving DecidableEq, Repr

namespace Arriving

/-- Reads what has come on a connection, which may have been closed; nothing as long as the head is
not complete. -/
def ofOctets? (received : List UInt8) (isClosed : Bool) : Option Arriving :=
  (head? received).map fun (head, rest) =>
    let status := head.status
    match head.framing with
    | .sized n => { status, octets := rest.take n, isComplete := n ≤ rest.length }
    | .chunked =>
      let (octets, isComplete) := unchunk (rest.length + 1) rest
      { status, octets, isComplete }
    | .untilClosed => { status, octets := rest, isComplete := isClosed }

/-- The reply, when nothing more comes because of `ending`, unless the body is complete. -/
def reply (a : Arriving) (ending : Ending) : Reply :=
  .answer a.status
    { chunks := [a.octets], ending := if a.isComplete then .closed else ending }

/-- The frames that have come, of a reply that is an event stream. -/
def frames (a : Arriving) : List Frame := (({} : Sse.Decoder).push a.octets).1

end Arriving

example : Arriving.ofOctets? (Text.octets "HTTP/1.1 200 OK\r\nContent-Length: 2\r\n\r\nhi") false =
    some { status := 200, octets := Text.octets "hi", isComplete := true } := by decide +kernel

example :
    Arriving.ofOctets?
        (Text.octets "HTTP/1.1 200 OK\r\ntransfer-encoding: chunked\r\n\r\n2\r\nhi\r\nA\r\nand")
        true =
      some { status := 200, octets := Text.octets "hiand", isComplete := false } := by
  decide +kernel

end PromptStudio.Wire
