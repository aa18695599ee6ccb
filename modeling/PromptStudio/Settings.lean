import PromptStudio.Failure
import PromptStudio.Json.Decode
import PromptStudio.Text.Blank

/-!
# Connection settings

Where the backend and the deployed previews are, and how long to wait for them. Base addresses
given by the user lose their slashes at the end, so that `Settings.endpoint` joins base and path by
exactly one slash. `Settings.ofEnvironment` reads the `STUDIO_*` variables.
-/

namespace PromptStudio

/-- Connection settings. Times are in milliseconds. -/
structure Settings where
  /-- Base address of the backend. -/
  apiUrl : String := "http://localhost:8000/api"
  /-- Base address of the deployed previews. -/
  previewUrl : String := "http://localhost:8000"
  /-- How long a stream may stay silent before it counts as dropped. -/
  idleTimeout : Nat := 45000
  /-- How long a plain request may take. -/
  requestTimeout : Nat := 30000
deriving DecidableEq, Repr

namespace Settings

/-- Sets the base address of the backend. -/
def withApiUrl (s : Settings) (url : String) : Settings :=
  { s with apiUrl := Text.trimEndSlashes url }

/-- Sets the base address of the previews. -/
def withPreviewUrl (s : Settings) (url : String) : Settings :=
  { s with previewUrl := Text.trimEndSlashes url }

/-- The address of a path below the backend's base address. -/
def endpoint (s : Settings) (path : String) : String :=
  s.apiUrl ++ "/" ++ Text.trimStartSlashes path

/-- Whole seconds as shown outside. -/
def idleSeconds (s : Settings) : Nat := s.idleTimeout / 1000

/-! ## The environment -/

/-- A natural number of 64 bits: decimal digits, a plus sign before them allowed. -/
def nat64OfText? (text : String) : Option Nat :=
  let digits :=
    match text.toList with
    | '+' :: ds => ds
    | ds => ds
  if digits.isEmpty || !digits.all Char.isDigit then none
  else
    let n := digits.foldl (fun n d => n * 10 + (d.toNat - 0x30)) 0
    if n < Nat.pow 2 64 then some n else none

/-- Reads a whole number of seconds, blanks around it allowed, as milliseconds. -/
def milliseconds (name raw : String) : Except Failure Nat :=
  match nat64OfText? (Text.trim raw) with
  | some seconds => .ok (seconds * 1000)
  | none =>
    .error (.settings (name ++ " must be a whole number of seconds, got '" ++ raw ++ "'"))

/-- The default settings with what the environment sets; the first variable that cannot be read is
an error. -/
def ofEnvironment (valueOf : String → Option String) : Except Failure Settings := do
  let s : Settings := {}
  let s := (valueOf "STUDIO_API_URL").elim s s.withApiUrl
  let s := (valueOf "STUDIO_PREVIEW_URL").elim s s.withPreviewUrl
  let s ← match valueOf "STUDIO_IDLE_TIMEOUT_SECS" with
    | some raw => (milliseconds "STUDIO_IDLE_TIMEOUT_SECS" raw).map ({ s with idleTimeout := · })
    | none => .ok s
  match valueOf "STUDIO_REQUEST_TIMEOUT_SECS" with
  | some raw =>
    (milliseconds "STUDIO_REQUEST_TIMEOUT_SECS" raw).map ({ s with requestTimeout := · })
  | none => .ok s

/-! ## Wire form -/

/-- Reads settings; times are in whole seconds. -/
def decode (src : Source) : Option Settings := do
  let fs ← src.fields? ["api_url", "preview_url", "idle_timeout", "request_timeout"]
  return {
    apiUrl := ← fs.need "api_url" Source.text?
    previewUrl := ← fs.need "preview_url" Source.text?
    idleTimeout := (← fs.need "idle_timeout" Source.nat64?) * 1000
    requestTimeout := (← fs.need "request_timeout" Source.nat64?) * 1000 }

/-- Writes settings. -/
def encode (s : Settings) : Json :=
  .obj [("api_url", .str s.apiUrl), ("preview_url", .str s.previewUrl),
    ("idle_timeout", .nat (s.idleTimeout / 1000)),
    ("request_timeout", .nat (s.requestTimeout / 1000))]

end Settings

end PromptStudio
