import PromptStudio.Failure
import PromptStudio.Json.Decode

/-!
# Envelopes and pages

Every answer of the backend wraps its payload in an envelope with a message and a code. The codes 0
and 200 mean success; `Envelope.payload` turns any other one into a failure. Lists come in pages.
-/

namespace PromptStudio

/-- A payload with the backend's message and code. -/
structure Envelope (α : Type) where
  message : String
  code : Int
  data : α

namespace Envelope

variable {α : Type}

/-- Reads an envelope whose payload is read by `read`. Where a payload may be missing, `absent` is
the one that stands for it; written as a list an envelope has all its fields. -/
def decode (read : Source → Option α) (absent : Option α) (src : Source) : Option (Envelope α) := do
  let fs ← src.fields? ["message", "code", "data"]
  let data ←
    match fs.lookup "data", src with
    | some s, _ => read s
    | none, .obj _ => absent
    | none, _ => none
  return {
    message := ← fs.orElse "message" "" Source.text?
    code := ← fs.orElse "code" 0 Source.int64?
    data }

/-- Writes an envelope. -/
def encode (write : α → Json) (e : Envelope α) : Json :=
  .obj [("message", .str e.message), ("code", .int e.code), ("data", write e.data)]

/-- The code means success. -/
def isSuccess (code : Int) : Bool := code = 0 || code = 200

/-- The status a failing code stands for: itself if it is one of 16 bits, else 500. -/
def statusOf (code : Int) : Nat := if 0 ≤ code && code < 65536 then code.toNat else 500

/-- The payload, or the failure that the code stands for. -/
def payload (e : Envelope α) : Except Failure α :=
  if isSuccess e.code then .ok e.data else .error (.api (statusOf e.code) e.message)

end Envelope

/-- A page of a list. -/
structure Page (α : Type) where
  page : Nat
  limit : Nat
  total : Nat
  pages : Nat
  hasNext : Bool
  hasPrevious : Bool
  items : List α

namespace Page

variable {α : Type}

/-- Reads a page whose items are read by `read`. -/
def decode (read : Source → Option α) (src : Source) : Option (Page α) := do
  let fs ← src.fields? ["page", "limit", "total", "pages", "hasNext", "hasPrev", "list"]
  return {
    page := ← fs.need "page" Source.nat32?
    limit := ← fs.need "limit" Source.nat32?
    total := ← fs.need "total" Source.nat64?
    pages := ← fs.need "pages" Source.nat32?
    hasNext := ← fs.orElse "hasNext" false Source.bool?
    hasPrevious := ← fs.orElse "hasPrev" false Source.bool?
    items := ← fs.orElse "list" [] (Source.list? read) }

/-- Writes a page. -/
def encode (write : α → Json) (p : Page α) : Json :=
  .obj [("page", .nat p.page), ("limit", .nat p.limit), ("total", .nat p.total),
    ("pages", .nat p.pages), ("hasNext", .bool p.hasNext), ("hasPrev", .bool p.hasPrevious),
    ("list", .arr (p.items.map write))]

end Page

end PromptStudio
