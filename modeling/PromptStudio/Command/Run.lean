import PromptStudio.Backend.Catalog
import PromptStudio.Command.Args
import PromptStudio.Command.Render
import PromptStudio.Json.Writer
import PromptStudio.Session.Drive
import PromptStudio.Studio.Preview

/-!
# Running the command

`Task.run` does what a command line asks for, against any backend, and says what is to be printed.
A task that fails prints nothing: all that a task prints comes after its last request.
-/

namespace PromptStudio.Command

/-- What a task prints. -/
structure Printed where
  /-- For the standard output. -/
  output : String := ""
  /-- Lines for the standard error. -/
  notices : List String := []
deriving DecidableEq, Repr

/-- What is left when the command has ended. -/
structure Exit where
  printed : Printed := {}
  failure : Option Failure := none
  /-- The command line cannot be understood. -/
  isMisused : Bool := false
deriving DecidableEq, Repr

/-- The exit code: 1 for a failure, 2 for a command line that cannot be understood. -/
def Exit.code (e : Exit) : Nat :=
  if e.isMisused then 2 else if e.failure.isSome then 1 else 0

/-- The name and the version of the command. -/
def versionText : String := unlines ["studio 0.1.0"]

/-- How the command is used. -/
def helpText : String :=
  unlines
    ["Usage: studio [OPTIONS] <COMMAND>", "", "Commands:",
      "  workflow <PROMPT>                            build a workflow",
      "  web <WORKFLOW_ID> <PROMPT> [--history]       build or change the site of a workflow",
      "  resume <WORKFLOW_ID> <EXECUTION_ID> [--web]  follow a running execution",
      "  graph <ID> [--json]                          show the graph of a workflow",
      "  list [--size <SIZE>]                         list workflows",
      "  delete <ID>                                  delete a workflow",
      "  rename <ID> <NAME>                           rename a workflow",
      "  models                                       list models",
      "  tools                                        list tools", "", "Options:",
      "  --api-url <URL>           base address of the backend",
      "  --preview-url <URL>       base address of the previews",
      "  --idle-timeout <SECONDS>  how long a stream may stay silent",
      "  -h, --help", "  -V, --version"]

/-- The settings of a command line: its options come before the environment. -/
def settings (env : String → Option String) (o : Options) : Except Failure Settings := do
  let s ← Settings.ofEnvironment env
  let s := o.apiUrl.elim s s.withApiUrl
  let s := o.previewUrl.elim s s.withPreviewUrl
  match o.idleTimeout with
  | some 0 => .error (.settings "--idle-timeout must be positive")
  | some seconds => .ok { s with idleTimeout := seconds * 1000 }
  | none => .ok s

/-! ## Tasks -/

/-- How the following of a stream ended, unless it ended well. -/
def reportLines : Outcome → List String
  | .completed => []
  | .failed reason => ["failed: " ++ reason]
  | .aborted => ["stopped"]
  | .disconnected cause => ["connection lost: " ++ cause.message]
  | .ended => ["stream closed before the turn finished"]

/-- What is printed after a turn: the transcript of its panel, how it ended, and further lines. -/
def printedTurn (mode : Mode) (w : World) (run : StreamRun) (further : List String) : Printed :=
  { output := transcriptText (w.studio.panel mode).entries ++
      unlines (reportLines run.outcome ++ further)
    notices := w.studio.notices }

/-- The line of a workflow in a list. -/
def workflowLine (w : Workflow) : String := w.id ++ "  " ++ w.updatedAt.minuteText ++ "  " ++ w.name

/-- Where the site can be seen after a turn. -/
def previewLines (w : World) (workflowId : String) (o : Outcome) : List String :=
  if w.studio.preview.url ≠ "" then ["preview: " ++ w.studio.preview.url]
  else if o.isSuccess then ["preview: " ++ previewAddress w.settings.previewUrl workflowId]
  else []

variable {m : Type → Type} [Monad m]

/-- Runs an operation to its end. -/
def finish (exchange : Request → m Reply) (s : World × Operation) :
    m (Except Failure (World × Option StreamRun)) := do
  let (w, op) ← Operation.drive exchange s
  return op.outcome.map (w, ·)

/-- Prints the lines that the result of a call gives. -/
def printLines {α : Type} (result : m (Except Failure α)) (lines : α → List String) :
    m (Except Failure Printed) := do
  return (← result).map fun a => { output := unlines (lines a) }

namespace Task

/-- Sends a prompt from the panel that builds workflows. -/
def workflowTurn (exchange : Request → m Reply) (w : World) (prompt : String) :
    m (Except Failure Printed) := do
  return (← finish exchange (w.send .workflow none prompt)).map fun
    | (w, some run) =>
      printedTurn .workflow w run
        (if run.outcome.isSuccess then ["workflow: " ++ run.graphId] else [])
    | (_, none) => {}

/-- Sends a prompt from the panel that builds sites. -/
def siteTurn (exchange : Request → m Reply) (w : World) (workflowId prompt : String) :
    m (Except Failure Printed) := do
  return (← finish exchange (w.send .webCreator (some workflowId) prompt)).map fun
    | (w, some run) =>
      printedTurn .webCreator w run (previewLines w workflowId run.outcome)
    | (_, none) => {}

/-- Follows an execution that is still running. -/
def resumedTurn (exchange : Request → m Reply) (w : World) (mode : Mode)
    (workflowId executionId : String) : m (Except Failure Printed) := do
  let w := { w with tasks := w.tasks.set (World.space mode) workflowId executionId }
  return (← finish exchange (w.resume mode workflowId)).map fun
    | (w, some run) => printedTurn mode w run []
    | (_, none) => { output := unlines ["execution is no longer running"] }

/-- Does what was asked for. -/
def run (exchange : Request → m Reply) (settings : Settings) :
    Task → m (Except Failure Printed)
  | .workflow prompt => workflowTurn exchange { settings } prompt
  | .web workflowId prompt false => siteTurn exchange { settings } workflowId prompt
  | .web workflowId prompt true => do
    match ← finish exchange (World.loadHistory { settings } workflowId) with
    | .ok (w, _) => siteTurn exchange w workflowId prompt
    | .error e => return .error e
  | .resume workflowId executionId isSite =>
    resumedTurn exchange { settings } (if isSite then .webCreator else .workflow) workflowId
      executionId
  | .graph id json => do
    return (← (Query.workflow id).call exchange).map fun w =>
      let drawing : Graph.Drawing Float := .ofSpec w.spec
      { output := if json then unlines [drawing.encode.indented 0] else drawingText w drawing }
  | .list size => do
    let (library, r) ← ({} : Library).refresh (WorkflowBackend.ofExchange exchange) size
    return r.map fun _ => { output := unlines (library.items.map workflowLine) }
  | .delete id =>
    printLines ((Change.delete id).call exchange) fun _ => ["deleted " ++ id]
  | .rename id name =>
    printLines ((Change.rename id name).call exchange) fun _ =>
      ["renamed " ++ id ++ " to " ++ name]
  | .models =>
    printLines (Query.models.call exchange) fun xs : List Model =>
      xs.map fun x => x.id ++ "  " ++ x.name
  | .tools =>
    printLines (Query.tools.call exchange) fun xs : List Tool =>
      xs.map fun x => x.name ++ "  " ++ x.description

end Task

/-! ## The command -/

/-- Runs the command with these variables and arguments against a backend. -/
def run (exchange : Settings → Request → m Reply) (env : String → Option String)
    (args : List String) : m Exit := do
  match parse env args with
  | none => return { isMisused := true }
  | some .help => return { printed := { output := helpText } }
  | some .version => return { printed := { output := versionText } }
  | some (.run options task) =>
    match settings env options with
    | .error e => return { failure := some e }
    | .ok s =>
      match ← task.run (exchange s) s with
      | .ok printed => return { printed }
      | .error e => return { failure := some e }

end PromptStudio.Command
