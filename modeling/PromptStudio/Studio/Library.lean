import PromptStudio.Backend.Envelope
import PromptStudio.Workflow.Detail

/-!
# The library of workflows

The list of workflows is cached. An edit is made in the cache first and then asked of the backend;
if the backend refuses, `rollback` takes it back. The backend is given by its three operations, in
any monad.
-/

namespace PromptStudio

/-- What the library asks of a backend. -/
structure WorkflowBackend (m : Type → Type) where
  /-- A page of the list. -/
  list : (page size : Nat) → m (Except Failure (Page Workflow))
  /-- Deletes a workflow. -/
  delete : (id : String) → m (Except Failure Unit)
  /-- Renames a workflow. -/
  rename : (id name : String) → m (Except Failure Unit)

/-- An edit of the library. -/
inductive Edit
  | delete (id : String)
  | rename (id name : String)
deriving DecidableEq, Repr

/-- How to take an edit back. -/
inductive Undo
  | reinsert (index : Nat) (item : Workflow)
  | rename (id previous : String)

/-- The cached list of workflows. -/
structure Library where
  items : List Workflow := []

namespace Library

/-- The first workflow with this id. -/
def get? (l : Library) (id : String) : Option Workflow := l.items.find? (·.id == id)

/-- Gives a name to the first workflow with this id. -/
def setName (id name : String) : List Workflow → List Workflow
  | [] => []
  | w :: ws => if w.id == id then { w with name } :: ws else w :: setName id name ws

/-- Makes an edit in the cache; nothing happens to a workflow that is not there. -/
def apply (l : Library) (e : Edit) : Library × Option Undo :=
  match e with
  | .delete id =>
    match l.items.findIdx? (·.id == id), l.get? id with
    | some index, some item => ({ items := l.items.eraseIdx index }, some (.reinsert index item))
    | _, _ => (l, none)
  | .rename id name =>
    match l.get? id with
    | some item => ({ items := setName id name l.items }, some (.rename id item.name))
    | none => (l, none)

/-- Takes an edit back. -/
def rollback (l : Library) : Undo → Library
  | .reinsert index item => { items := l.items.insertIdx (min index l.items.length) item }
  | .rename id previous => { items := setName id previous l.items }

variable {m : Type → Type} [Monad m]

/-- Replaces the cache by the first page of the list. -/
def refresh (b : WorkflowBackend m) (l : Library) (size : Nat) :
    m (Library × Except Failure Unit) := do
  match ← b.list 1 size with
  | .ok page => return ({ items := page.items }, .ok ())
  | .error e => return (l, .error e)

/-- Asks the backend for an edit. -/
def ask (b : WorkflowBackend m) : Edit → m (Except Failure Unit)
  | .delete id => b.delete id
  | .rename id name => b.rename id name

/-- Makes an edit in the cache, asks the backend for it, and takes it back if that fails. -/
def execute (b : WorkflowBackend m) (l : Library) (e : Edit) :
    m (Library × Except Failure Unit) := do
  let (edited, undo) := l.apply e
  match ← ask b e with
  | .ok () => return (edited, .ok ())
  | .error failure => return (undo.elim edited edited.rollback, .error failure)

end Library

end PromptStudio
