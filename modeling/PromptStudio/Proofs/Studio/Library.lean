import Mathlib.Data.List.InsertIdx
import PromptStudio.Studio.Library

/-!
# The library holds what has been confirmed

An edit that the backend refuses is taken back from the cache, and what is taken back is just what
had been made (`rollback_apply`). So each call asks the backend once and settles the cache by the
answer alone (`make_eq`), and after any run of calls the cache holds what the accepted ones make of
it, in their order (`run_confirmed`).
-/

namespace PromptStudio.Library

variable {id : String} {l : Library} {ws : List Workflow} {w x : Workflow} {i : Nat}

/-! ## Names -/

theorem setName_cons_of_eq (h : x.id = id) (name : String) :
    setName id name (x :: ws) = { x with name } :: ws :=
  if_pos (beq_iff_eq.mpr h)

theorem setName_cons_of_ne (h : x.id ≠ id) (name : String) :
    setName id name (x :: ws) = x :: setName id name ws :=
  if_neg fun heq => h (beq_iff_eq.mp heq)

theorem setName_of_find?_eq_none (h : ws.find? (·.id == id) = none) (name : String) :
    setName id name ws = ws := by
  induction ws with
  | nil => rfl
  | cons x xs ih =>
    obtain ⟨hx, hxs⟩ := List.forall_mem_cons.mp (List.find?_eq_none.mp h)
    rw [setName_cons_of_ne fun hid => hx (beq_iff_eq.mpr hid), ih (List.find?_eq_none.mpr hxs)]

theorem setName_setName (id name previous : String) (ws : List Workflow) :
    setName id previous (setName id name ws) = setName id previous ws := by
  induction ws with
  | nil => rfl
  | cons x xs ih =>
    by_cases hx : x.id = id
    · rw [setName_cons_of_eq hx, setName_cons_of_eq hx]
      exact if_pos (beq_iff_eq.mpr hx)
    · rw [setName_cons_of_ne hx, setName_cons_of_ne hx, setName_cons_of_ne hx, ih]

/-- The first workflow with this id has its own name already. -/
theorem setName_of_find? (h : ws.find? (·.id == id) = some w) : setName id w.name ws = ws := by
  induction ws with
  | nil => cases h
  | cons x xs ih =>
    rw [List.find?_cons] at h
    by_cases hx : x.id = id
    · rw [beq_iff_eq.mpr hx] at h
      cases h
      rw [setName_cons_of_eq hx]
    · rw [beq_eq_false_iff_ne.mpr hx] at h
      rw [setName_cons_of_ne hx, ih h]

theorem setName_eq_modify (id name : String) (ws : List Workflow) :
    setName id name ws = ws.modify (ws.findIdx (·.id == id)) fun w => { w with name } := by
  induction ws with
  | nil => rfl
  | cons x xs ih =>
    rw [List.findIdx_cons]
    by_cases hx : x.id = id
    · rw [setName_cons_of_eq hx, beq_iff_eq.mpr hx]
      rfl
    · rw [setName_cons_of_ne hx, beq_eq_false_iff_ne.mpr hx, ih]
      rfl

/-! ## Edits and how they are taken back -/

theorem get?_of_findIdx? (h : l.items.findIdx? (·.id == id) = some i) :
    ∃ hi : i < l.items.length, l.get? id = some l.items[i] := by
  obtain ⟨hi, hid, hbefore⟩ := List.findIdx?_eq_some_iff_getElem.mp h
  refine ⟨hi, List.find?_eq_some_iff_getElem.mpr ⟨hid, i, hi, rfl, fun j hj => ?_⟩⟩
  simpa using hbefore j hj

/-- What an edit does to the cache, and what is kept for taking it back. -/
theorem apply_cases (l : Library) (e : Edit) :
    (∃ id i, ∃ hi : i < l.items.length, e = .delete id ∧
      l.items.findIdx? (·.id == id) = some i ∧
      l.apply e = ({ items := l.items.eraseIdx i }, some (.reinsert i l.items[i]))) ∨
    (∃ id, e = .delete id ∧ l.items.findIdx? (·.id == id) = none ∧ l.apply e = (l, none)) ∨
    (∃ id name w, e = .rename id name ∧ l.get? id = some w ∧
      l.apply e = ({ items := setName id name l.items }, some (.rename id w.name))) ∨
    ∃ id name, e = .rename id name ∧ l.get? id = none ∧ l.apply e = (l, none) := by
  cases e with
  | delete id =>
    cases hidx : l.items.findIdx? (·.id == id) with
    | none => exact .inr (.inl ⟨id, rfl, hidx, by simp only [apply, hidx]⟩)
    | some i =>
      obtain ⟨hi, hget⟩ := get?_of_findIdx? hidx
      exact .inl ⟨id, i, hi, rfl, hidx, by simp only [apply, hidx, hget]⟩
  | rename id name =>
    cases hget : l.get? id with
    | none => exact .inr (.inr (.inr ⟨id, name, rfl, hget, by simp only [apply, hget]⟩))
    | some w => exact .inr (.inr (.inl ⟨id, name, w, rfl, hget, by simp only [apply, hget]⟩))

/-- Taking an edit back leaves the cache as it was before the edit. -/
theorem rollback_apply (l : Library) (e : Edit) :
    (l.apply e).2.elim (l.apply e).1 (l.apply e).1.rollback = l := by
  rcases apply_cases l e with ⟨_, i, hi, _, _, happly⟩ | ⟨_, _, _, happly⟩ |
    ⟨id, name, w, _, hget, happly⟩ | ⟨_, _, _, _, happly⟩
  · have hmin : min i (l.items.eraseIdx i).length = i := by
      rw [List.length_eraseIdx_of_lt hi]
      omega
    rw [happly]
    show ({ items := _ } : Library) = l
    rw [hmin, List.insertIdx_eraseIdx_getElem hi]
  · rw [happly]
    rfl
  · rw [happly]
    show ({ items := _ } : Library) = l
    rw [setName_setName, setName_of_find? hget]
  · rw [happly]
    rfl

/-! ## Calls and their answers -/

/-- A call of the library that asks the backend. -/
inductive Call
  | refresh (size : Nat)
  | edit (e : Edit)

/-- A call with the backend's answer. -/
inductive Answered
  | refresh (answer : Except Failure (Page Workflow))
  | edit (e : Edit) (answer : Except Failure Unit)

/-- What the backend has accepted. -/
inductive Confirmed
  | listed (page : Page Workflow)
  | edited (e : Edit)

/-- What the call returns: nothing, or the backend's failure. -/
def Answered.outcome : Answered → Except Failure Unit
  | .refresh answer => answer.map fun _ => ()
  | .edit _ answer => answer

/-- What the answer confirms, unless it is a refusal. -/
def Answered.confirmed? : Answered → Option Confirmed
  | .refresh (.ok page) => some (.listed page)
  | .edit e (.ok ()) => some (.edited e)
  | .refresh (.error _) | .edit _ (.error _) => none

/-- What is left of a list of workflows: the page in its place, or the list without the first
workflow of the id, or with another name for that one. -/
def Confirmed.perform (ws : List Workflow) : Confirmed → List Workflow
  | .listed page => page.items
  | .edited (.delete id) => ws.eraseP (·.id == id)
  | .edited (.rename id name) => ws.modify (ws.findIdx (·.id == id)) fun w => { w with name }

/-- The cache after an answer. -/
def settle (l : Library) (a : Answered) : Library :=
  { items := a.confirmed?.elim l.items (·.perform l.items) }

theorem items_apply (l : Library) (e : Edit) :
    (l.apply e).1 = { items := (Confirmed.edited e).perform l.items } := by
  rcases apply_cases l e with ⟨id, i, hi, rfl, hidx, happly⟩ | ⟨id, rfl, hidx, happly⟩ |
    ⟨id, name, w, rfl, _, happly⟩ | ⟨id, name, rfl, hget, happly⟩
  · rw [happly, Confirmed.perform, List.eraseP_eq_eraseIdx, hidx]
  · rw [happly, Confirmed.perform, List.eraseP_eq_eraseIdx, hidx]
  · rw [happly, Confirmed.perform, ← setName_eq_modify]
  · rw [happly, Confirmed.perform, ← setName_eq_modify, setName_of_find?_eq_none hget]

section Run

variable {m : Type → Type} [Monad m]

/-- Makes a call. -/
def make (b : WorkflowBackend m) (l : Library) : Call → m (Library × Except Failure Unit)
  | .refresh size => l.refresh b size
  | .edit e => l.execute b e

/-- Makes one call after the other, and gives what each of them returns. -/
def run (b : WorkflowBackend m) (l : Library) : List Call →
    m (Library × List (Except Failure Unit))
  | [] => return (l, [])
  | c :: cs => do
    let (l, outcome) ← l.make b c
    let (l, outcomes) ← l.run b cs
    return (l, outcome :: outcomes)

/-- Asks the backend what a call asks of it, and does nothing else. -/
def Call.ask (b : WorkflowBackend m) : Call → m Answered
  | .refresh size => .refresh <$> b.list 1 size
  | .edit e => .edit e <$> Library.ask b e

variable [LawfulMonad m]

/-- A call asks the backend once, and the answer settles the cache. -/
theorem make_eq (b : WorkflowBackend m) (l : Library) (c : Call) :
    l.make b c = (fun a => (l.settle a, a.outcome)) <$> c.ask b := by
  cases c with
  | refresh size =>
    rw [Call.ask, Functor.map_map, map_eq_pure_bind]
    refine bind_congr fun answer => ?_
    cases answer <;> rfl
  | edit e =>
    rw [Call.ask, Functor.map_map, map_eq_pure_bind]
    refine bind_congr fun answer => ?_
    cases answer with
    | ok => exact congrArg (fun l => pure (l, Except.ok ())) (items_apply l e)
    | error failure => exact congrArg (fun l => pure (l, Except.error failure)) (rollback_apply l e)

theorem settle_of_error {a : Answered} {failure : Failure} (h : a.outcome = .error failure) :
    l.settle a = l := by
  cases a with
  | refresh answer =>
    cases answer with
    | ok => cases h
    | error => rfl
  | edit e answer =>
    cases answer with
    | ok => cases h
    | error => rfl

theorem items_foldl_settle (l : Library) (answers : List Answered) :
    answers.foldl settle l =
      { items := (answers.filterMap (·.confirmed?)).foldl Confirmed.perform l.items } := by
  induction answers generalizing l with
  | nil => rfl
  | cons a as ih =>
    rw [List.foldl_cons, ih, List.filterMap_cons]
    unfold settle
    cases a.confirmed? <;> rfl

theorem run_eq (b : WorkflowBackend m) (l : Library) (calls : List Call) :
    l.run b calls =
      (fun answers => (answers.foldl settle l, answers.map Answered.outcome)) <$>
        calls.mapM (Call.ask b) := by
  induction calls generalizing l with
  | nil => simp [run]
  | cons c cs ih =>
    rw [run, make_eq, List.mapM_cons]
    simp [ih]

/-- After any run of calls the cache holds what the accepted ones make of it, in their order; each
call asks the backend once, returns what the backend says, and changes nothing if that is a
failure. -/
theorem run_confirmed (b : WorkflowBackend m) (l : Library) (calls : List Call) :
    l.run b calls =
        (fun answers =>
          ({ items := (answers.filterMap (·.confirmed?)).foldl Confirmed.perform l.items },
            answers.map Answered.outcome)) <$> calls.mapM (Call.ask b) ∧
      ∀ c, l.make b c = (fun a => (l.settle a, a.outcome)) <$> c.ask b ∧
        ∀ a failure, a.outcome = .error failure → l.settle a = l := by
  refine ⟨?_, fun c => ⟨make_eq b l c, fun a failure h => settle_of_error h⟩⟩
  rw [run_eq]
  exact congrArg (· <$> calls.mapM (Call.ask b)) (funext fun answers => by rw [items_foldl_settle])

end Run

/-- A workflow without agents. -/
def blank (id name : String) : Workflow where
  id := id
  name := name
  description := ""
  spec :=
    { agents := []
      nodes := []
      edges := []
      entryPoint := ""
      inputSchema := .null
      outputSchema := .null }
  version := 1
  createdAt := default
  updatedAt := default

/-- A backend that deletes nothing, and remembers what it was asked. -/
def keeper : WorkflowBackend (StateM (List Edit)) where
  list _ _ := return .error .unreadable
  delete id := do
    modify (· ++ [.delete id])
    return .error (.api 500 "boom")
  rename id name := do
    modify (· ++ [.rename id name])
    return .ok ()

/-- Two workflows of one id. The refused deletion leaves both in their places, the name goes to the
first of them, and the backend is asked for a workflow that is not in the cache as well. -/
theorem run_confirmed_keeper :
    let l : Library := { items := [blank "a" "first", blank "a" "second"] }
    let calls : List Call := [.edit (.delete "a"), .edit (.rename "a" "third"),
      .edit (.rename "z" "fourth")]
    LawfulMonad (StateM (List Edit)) ∧ (l.run keeper calls).run [] =
      (({ items := [blank "a" "third", blank "a" "second"] },
        [.error (.api 500 "boom"), .ok (), .ok ()]),
        [.delete "a", .rename "a" "third", .rename "z" "fourth"]) := by
  refine ⟨inferInstance, ?_⟩
  rw [(run_confirmed keeper _ _).1]
  rfl

end PromptStudio.Library
