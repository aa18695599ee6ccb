import PromptStudio.Text.Lossy

/-!
# Addresses

`Url.parse?` reads an absolute address the lenient way that web clients share: blanks around it and
line breaks in it are dropped, scheme and host are put in lower case, `.` and `..` are resolved, and
characters that an address cannot hold are written as percent signs and digits. What stands behind
`#` is kept in the address but not sent; what stands behind `?` is sent as the query.

Hosts are read in a simpler way: one with a percent sign or with a character outside ASCII is no
host (it is neither unescaped nor put into the form that the domain system uses), and numbers that
spell an address (`127.1`, `0x7f.1`, `[0::1]`) are not brought into one form. A name and a password
before the host are dropped.
-/

namespace PromptStudio

/-- An absolute address. -/
structure Url where
  scheme : String
  /-- The host, if the address has one. -/
  host : Option String
  port : Option Nat
  path : String
  query : Option String
  fragment : Option String
deriving DecidableEq, Repr

namespace Url

/-! ## Percent signs -/

/-- A digit of an escape. -/
def escapeDigit (n : Nat) : Char := if n < 10 then Char.ofNat (0x30 + n) else Char.ofNat (0x37 + n)

/-- The escape of an octet. -/
def escapeOctet (b : UInt8) : List Char :=
  ['%', escapeDigit (b.toNat / 16), escapeDigit (b.toNat % 16)]

/-- Never stands in an address as it is. -/
def isForeign (c : Char) : Bool := c.toNat < 0x20 || 0x7F ≤ c.toNat

/-- Escapes the characters of `marks` and those that never stand in an address. -/
def escape (marks : List Char) (cs : List Char) : List Char :=
  cs.flatMap fun c =>
    if isForeign c || marks.contains c then
      (Text.octets (String.singleton c)).flatMap escapeOctet
    else [c]

/-- Escaped in a path. -/
def pathMarks : List Char := [' ', '"', '#', '<', '>', '?', '\x60', '\x7b', '\x7d']

/-- Escaped in a query. -/
def queryMarks : List Char := [' ', '"', '#', '<', '>', '\x27']

/-- Escaped in a fragment. -/
def fragmentMarks : List Char := [' ', '"', '<', '>', '\x60']

/-! ## Parts of an address -/

/-- Drops control characters and blanks at both ends, and line breaks and tabs everywhere. -/
def clean (cs : List Char) : List Char :=
  let atEnd := fun (c : Char) => c.toNat ≤ 0x20
  let trimmed := ((cs.dropWhile atEnd).reverse.dropWhile atEnd).reverse
  trimmed.filter fun c => c != '\t' && c != '\n' && c != '\r'

/-- The parts before and behind the first character that satisfies `p`; that character is lost. -/
def cut (p : Char → Bool) (cs : List Char) : List Char × Option (List Char) :=
  match cs.dropWhile (!p ·) with
  | [] => (cs, none)
  | _ :: rest => (cs.takeWhile (!p ·), some rest)

/-- The scheme and what follows its colon. -/
def scheme? (cs : List Char) : Option (String × List Char) :=
  match cut (· == ':') cs with
  | (name, some rest) =>
    match name with
    | c :: _ =>
      if c.isAlpha && name.all fun c => c.isAlphanum || c == '+' || c == '-' || c == '.' then
        some (String.ofList (name.map Char.toLower), rest)
      else none
    | [] => none
  | _ => none

/-- The schemes whose addresses always have a host, with the port each stands for. -/
def hostSchemes : List (String × Nat) :=
  [("http", 80), ("https", 443), ("ws", 80), ("wss", 443), ("ftp", 21)]

/-- The segments of a path. -/
def segmentsFrom (isSlash : Char → Bool) (current : List Char) : List Char → List (List Char)
  | [] => [current.reverse]
  | c :: cs =>
    if isSlash c then current.reverse :: segmentsFrom isSlash [] cs
    else segmentsFrom isSlash (c :: current) cs

/-- A segment that stands for the current place. -/
def isHere (segment : List Char) : Bool :=
  [['.'], ['%', '2', 'e']].contains (segment.map Char.toLower)

/-- A segment that stands for the place above. -/
def isAbove (segment : List Char) : Bool :=
  [['.', '.'], ['.', '%', '2', 'e'], ['%', '2', 'e', '.'],
    ['%', '2', 'e', '%', '2', 'e']].contains (segment.map Char.toLower)

/-- Resolves segments; `above` holds those already resolved, the last first. -/
def resolve (above : List (List Char)) : List (List Char) → List (List Char)
  | [] => above.reverse
  | s :: rest =>
    let closing : List (List Char) := if rest.isEmpty then [[]] else []
    if isAbove s then resolve (closing ++ above.tail) rest
    else if isHere s then resolve (closing ++ above) rest
    else resolve (escape pathMarks s :: above) rest

/-- A path with its segments resolved and escaped. It starts with a slash. -/
def pathText (isSlash : Char → Bool) (cs : List Char) : String :=
  let segments :=
    match cs with
    | c :: rest => if isSlash c then segmentsFrom isSlash [] rest else segmentsFrom isSlash [] cs
    | [] => [[]]
  String.ofList ((resolve [] segments).flatMap ('/' :: ·))

/-- May not stand in a host. -/
def isBarred (c : Char) : Bool :=
  isForeign c || [' ', '#', '/', ':', '<', '>', '?', '@', '[', '\\', ']', '^', '|', '%'].contains c

/-- A port number; none for the one that the scheme stands for. -/
def port? (scheme : String) (cs : List Char) : Option (Option Nat) :=
  if cs.isEmpty then some none
  else if cs.all Char.isDigit then
    let n := cs.foldl (fun n d => n * 10 + (d.toNat - 0x30)) 0
    if 65536 ≤ n then none
    else some (if hostSchemes.lookup scheme = some n then none else some n)
  else none

/-- May stand in an address of the newer kind. -/
def isAddressChar (c : Char) : Bool :=
  c.isDigit || ('a' ≤ c.toLower && c.toLower ≤ 'f') || c == ':' || c == '.'

/-- The host and the port of an authority; what stands before an at sign is dropped. -/
def authority? (scheme : String) (cs : List Char) : Option (String × Option Nat) :=
  let behind := (cs.reverse.takeWhile (· != '@')).reverse
  match behind with
  | '[' :: rest =>
    match cut (· == ']') rest with
    | (inner, some after) =>
      if inner.all isAddressChar then
        let host := String.ofList ('[' :: inner.map Char.toLower ++ [']'])
        match after with
        | [] => some (host, none)
        | ':' :: digits => (port? scheme digits).map (host, ·)
        | _ => none
      else none
    | _ => none
  | behind =>
    let (host, digits) := cut (· == ':') behind
    if host.isEmpty || host.any isBarred then none
    else (port? scheme (digits.getD [])).map (String.ofList (host.map Char.toLower), ·)

/-- Reads an absolute address. -/
def parse? (text : String) : Option Url := do
  let (scheme, rest) ← scheme? (clean text.toList)
  let (rest, fragment) := cut (· == '#') rest
  let (rest, query) := cut (· == '?') rest
  let fragment := fragment.map fun cs => String.ofList (escape fragmentMarks cs)
  if (hostSchemes.lookup scheme).isSome then
    let isSlash := fun c => c == '/' || c == '\\'
    let query := query.map fun cs => String.ofList (escape queryMarks cs)
    let rest := rest.dropWhile isSlash
    let (host, port) ← authority? scheme (rest.takeWhile (!isSlash ·))
    let path := pathText isSlash (rest.dropWhile (!isSlash ·))
    return { scheme, host := some host, port, path, query, fragment }
  else
    let query := query.map fun cs => String.ofList (escape queryMarks.dropLast cs)
    match rest with
    | '/' :: '/' :: rest =>
      let isSlash := fun c => c == '/'
      let (host, port) ← authority? scheme (rest.takeWhile (!isSlash ·))
      let path := pathText isSlash (rest.dropWhile (!isSlash ·))
      return { scheme, host := some host, port, path, query, fragment }
    | '/' :: _ =>
      return { scheme, host := none, port := none, path := pathText (· == '/') rest, query,
               fragment }
    | rest =>
      return { scheme, host := none, port := none, path := String.ofList (escape [] rest), query,
               fragment }

/-! ## Writing -/

/-- What is asked of the server: path and query. -/
def target (u : Url) : String := u.path ++ u.query.elim "" ("?" ++ ·)

/-- The address as text. -/
def text (u : Url) : String :=
  u.scheme ++ ":" ++ u.host.elim "" ("//" ++ ·) ++ u.port.elim "" (":" ++ toString ·) ++ u.target ++
    u.fragment.elim "" ("#" ++ ·)

/-- Can be reached by the transport. -/
def isWeb (u : Url) : Bool := u.host.isSome && (u.scheme = "http" || u.scheme = "https")

end Url

end PromptStudio
