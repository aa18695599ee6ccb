import PromptStudio.Proofs.Studio.Library

/-!
# Edits are taken back in reverse order

Edits are made in the cache one after the other, and what is kept for taking one back speaks of the
list as that edit left it: a place in it, or the first workflow of an id. Taken back in reverse
order, each edit meets that very list again, so all of them together leave the cache as it was
(`rollback_applyAll`). An edit for which nothing is kept has found no workflow and changed nothing.
-/

namespace PromptStudio

/-- The workflow that an edit is about. -/
def Edit.target : Edit → String
  | .delete id => id
  | .rename id _ => id

namespace Library

/-- Makes one edit after the other in the cache. What is kept for taking them back comes in the
order of the edits; an edit that finds no workflow leaves nothing there. -/
def applyAll (l : Library) : List Edit → Library × List Undo
  | [] => (l, [])
  | e :: es =>
    let (edited, undo) := l.apply e
    let (last, undos) := edited.applyAll es
    (last, undo.toList ++ undos)

theorem applyAll_cons (l : Library) (e : Edit) (es : List Edit) :
    l.applyAll (e :: es) =
      (((l.apply e).1.applyAll es).1,
        (l.apply e).2.toList ++ ((l.apply e).1.applyAll es).2) := rfl

/-- An edit that finds no workflow changes nothing. -/
theorem apply_of_get?_eq_none {l : Library} {e : Edit} (h : l.get? e.target = none) :
    l.apply e = (l, none) := by
  rcases apply_cases l e with ⟨id, i, hi, rfl, hidx, _⟩ | ⟨_, _, _, happly⟩ |
    ⟨id, name, w, rfl, hget, _⟩ | ⟨_, _, _, _, happly⟩
  · obtain ⟨_, hget⟩ := get?_of_findIdx? hidx
    cases h.symm.trans hget
  · exact happly
  · cases h.symm.trans hget
  · exact happly

/-- Nothing is kept just for the edits that find no workflow. -/
theorem snd_apply_eq_none_iff (l : Library) (e : Edit) :
    (l.apply e).2 = none ↔ l.get? e.target = none := by
  constructor
  · intro h
    rcases apply_cases l e with ⟨_, _, _, _, _, happly⟩ | ⟨id, rfl, hidx, _⟩ |
      ⟨_, _, _, _, _, happly⟩ | ⟨id, name, rfl, hget, _⟩
    · rw [happly] at h
      cases h
    · refine List.find?_eq_none.mpr fun w hw hid => ?_
      cases (List.findIdx?_eq_none_iff.mp hidx w hw).symm.trans hid
    · rw [happly] at h
      cases h
    · exact hget
  · intro h
    rw [apply_of_get?_eq_none h]

/-- Taking back what has been kept for one edit. -/
theorem foldl_rollback_apply (l : Library) (e : Edit) :
    (l.apply e).2.toList.reverse.foldl rollback (l.apply e).1 = l := by
  have hback := rollback_apply l e
  cases hundo : (l.apply e).2 with
  | none =>
    rw [hundo] at hback
    exact hback
  | some undo =>
    rw [hundo] at hback
    exact hback

theorem rollback_applyAll (l : Library) (es : List Edit) :
    (l.applyAll es).2.reverse.foldl rollback (l.applyAll es).1 = l := by
  induction es generalizing l with
  | nil => rfl
  | cons e es ih =>
    rw [applyAll_cons]
    dsimp only
    -- the later edits first, down to the list that this one left
    rw [List.reverse_append, List.foldl_append, ih]
    exact foldl_rollback_apply l e

/-- Edits of the cache undo in reverse order. Whatever edits are made one after the other, taking
back what has been kept of them, the last one first, gives the list that was there before, with
every workflow in its place and under its name. And nothing is kept for an edit just if its workflow
is not in the cache, in which case the edit has changed nothing. -/
theorem edits_undo_in_reverse (l : Library) (es : List Edit) :
    (l.applyAll es).2.reverse.foldl rollback (l.applyAll es).1 = l ∧
      ∀ e, let m := (l.applyAll es).1
        ((m.apply e).2 = none ↔ m.get? e.target = none) ∧
          ((m.apply e).2 = none ↔ m.apply e = (m, none)) := by
  refine ⟨rollback_applyAll l es, ?_⟩
  intro e m
  refine ⟨snd_apply_eq_none_iff m e, ?_, ?_⟩
  · intro h
    exact apply_of_get?_eq_none ((snd_apply_eq_none_iff m e).mp h)
  · intro h
    rw [h]

/-- Two workflows of one id, both renamed and one deleted, and an edit of a workflow that is not
there: three edits to take back. -/
example :
    let l : Library := { items := [blank "a" "first", blank "a" "second", blank "b" "third"] }
    let es : List Edit := [.rename "a" "x", .delete "a", .rename "z" "w", .rename "a" "y"]
    (l.applyAll es).1 = { items := [blank "a" "y", blank "b" "third"] } ∧
      (l.applyAll es).2 = [.rename "a" "first", .reinsert 0 (blank "a" "x"),
        .rename "a" "second"] := ⟨rfl, rfl⟩

end Library

end PromptStudio
