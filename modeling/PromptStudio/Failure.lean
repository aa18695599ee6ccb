/-!
# Failures

What can go wrong between the studio and its backend. `StreamFailure` is what ends an event stream
early, `Failure` what a call can end in; `message` gives the wording shown to the user, and
`Failure.isNetwork` tells the failures of the transport from those that the backend reports.
-/

namespace PromptStudio

/-- Why an event stream could not be opened or ended early. -/
inductive StreamFailure
  /-- The connection broke. -/
  | dropped (reason : String)
  /-- No frame came for this many seconds. -/
  | idle (seconds : Nat)
  /-- The backend does not know the execution. -/
  | unknownExecution (id : String)
deriving DecidableEq, Repr

/-- Why a call failed. -/
inductive Failure
  /-- The backend refused, with a status and a reason. -/
  | api (status : Nat) (reason : String)
  /-- No complete answer came back. -/
  | http (reason : String)
  /-- An event stream failed. -/
  | stream (cause : StreamFailure)
  /-- An answer could not be read as what was expected. -/
  | unreadable
  /-- The settings are not usable. -/
  | settings (reason : String)
  /-- Anything else. -/
  | other (reason : String)
deriving DecidableEq, Repr

/-- The wording of a stream failure. -/
def StreamFailure.message : StreamFailure → String
  | .dropped reason => "connection dropped: " ++ reason
  | .idle seconds => "no frame received for " ++ toString seconds ++ "s"
  | .unknownExecution id => "execution not found: " ++ id

namespace Failure

/-- The wording of a failure. -/
def message : Failure → String
  | .api status reason => "API error (" ++ toString status ++ "): " ++ reason
  | .http reason => "HTTP error: " ++ reason
  | .stream cause => "Stream error: " ++ cause.message
  | .unreadable => "Serialization error"
  | .settings reason => "Configuration error: " ++ reason
  | .other reason => reason

/-- The transport failed; the backend did not report anything. -/
def isNetwork : Failure → Bool
  | .http _ | .stream (.dropped _) | .stream (.idle _) => true
  | _ => false

end Failure

end PromptStudio
