import PromptStudio.Time.Instant
import PromptStudio.Workflow.Spec

/-!
# Workflows

A workflow as the backend lists it: its current specification with a name, a description and the
times of its creation and last change.
-/

namespace PromptStudio

/-- A workflow as the backend lists it. -/
structure Workflow where
  id : String
  name : String
  description : String
  spec : Spec
  version : Int
  createdAt : Instant
  updatedAt : Instant

namespace Workflow

/-- Reads a workflow. -/
def decode (src : Source) : Option Workflow := do
  let fs ← src.fields? ["id", "name", "description", "current_spec", "current_version_id",
    "created_at", "updated_at"]
  return {
    id := ← fs.need "id" Source.text?
    name := ← fs.need "name" Source.text?
    description := ← fs.orElse "description" "" Source.text?
    spec := ← fs.need "current_spec" Spec.decode
    version := ← fs.orElse "current_version_id" 0 Source.int64?
    createdAt := ← fs.need "created_at" Instant.decode
    updatedAt := ← fs.need "updated_at" Instant.decode }

/-- Writes a workflow. -/
def encode (w : Workflow) : Json :=
  .obj [("id", .str w.id), ("name", .str w.name), ("description", .str w.description),
    ("current_spec", w.spec.encode), ("current_version_id", .int w.version),
    ("created_at", w.createdAt.encode), ("updated_at", w.updatedAt.encode)]

end Workflow

end PromptStudio
