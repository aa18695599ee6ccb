/-!
# The most recent executions

For each workflow the studio remembers the execution submitted last, so that its stream can be
followed again. All features share one map; each has a namespace of its own, which is part of the
keys.
-/

namespace PromptStudio

/-- The shared map from keys to execution ids. -/
structure Tasks where
  entries : List (String × String) := []
deriving DecidableEq, Repr

namespace Tasks

/-- The key of a workflow in a namespace. -/
def key (space workflowId : String) : String := "for_" ++ space ++ "_task___" ++ workflowId

/-- The namespace of the panel that builds workflows. -/
def workflowSpace : String := "workflow"

/-- The namespace of the panel that builds sites. -/
def siteSpace : String := "webcreator"

/-- The execution remembered for a workflow. -/
def get? (t : Tasks) (space workflowId : String) : Option String :=
  t.entries.lookup (key space workflowId)

/-- The entries without those of a key. -/
def without (k : String) (entries : List (String × String)) : List (String × String) :=
  entries.filter (·.1 != k)

/-- Remembers an execution. -/
def set (t : Tasks) (space workflowId executionId : String) : Tasks :=
  let k := key space workflowId
  { entries := (k, executionId) :: without k t.entries }

/-- Forgets the execution of a workflow, and gives it. -/
def remove (t : Tasks) (space workflowId : String) : Tasks × Option String :=
  ({ entries := without (key space workflowId) t.entries }, t.get? space workflowId)

end Tasks

end PromptStudio
