import Mathlib.Data.List.Nodup
import PromptStudio.Chat.Panel

/-!
# Ids

A panel hands out ids by counting: `idsAfter mode n k` are the `k` ids it hands out next when it has
counted to `n`. `numberOf` reads the number off an id again, so they are all different
(`nodup_idsAfter`), and `renumber` gives an id the place that it has in a panel that had counted
further before (`map_renumber_idsAfter`).
-/

namespace PromptStudio

variable {mode : Mode} {m n : Nat}

/-- The number of an id: what follows the panel's two letters and the hyphen. -/
def numberOf (id : String) : Nat := Nat.ofDigitChars 10 (id.toList.drop 3) 0

@[simp] theorem numberOf_idOf (mode : Mode) (n : Nat) : numberOf (idOf mode n) = n := by
  have hdigits : (idOf mode n).toList.drop 3 = Nat.toDigits 10 n := by
    cases mode <;> simp [idOf, Nat.toString_eq_repr, Nat.repr_eq_ofList_toDigits]
  unfold numberOf
  rw [hdigits]
  exact Nat.ofDigitChars_ten_toDigits

theorem idOf_inj : idOf mode m = idOf mode n ↔ m = n := by
  refine ⟨fun h => ?_, fun h => h ▸ rfl⟩
  simpa using congrArg numberOf h

/-- The `k` ids that a panel hands out after the first `n`. -/
def idsAfter (mode : Mode) (n k : Nat) : List String :=
  (List.range k).map fun j => idOf mode (n + j + 1)

theorem idsAfter_one (mode : Mode) (n : Nat) : idsAfter mode n 1 = [idOf mode (n + 1)] := rfl

theorem idsAfter_add (mode : Mode) (n k l : Nat) :
    idsAfter mode n (k + l) = idsAfter mode n k ++ idsAfter mode (n + k) l := by
  simp [idsAfter, List.range_add, Nat.add_assoc, Function.comp_def]

theorem nodup_idsAfter (mode : Mode) (n k : Nat) : (idsAfter mode n k).Nodup := by
  refine List.Nodup.map (fun i j h => ?_) List.nodup_range
  have hsum : n + i + 1 = n + j + 1 := idOf_inj.mp h
  omega

/-- The id whose number is greater by `n`. -/
def renumber (mode : Mode) (n : Nat) (id : String) : String := idOf mode (numberOf id + n)

@[simp] theorem renumber_idOf (mode : Mode) (m n : Nat) :
    renumber mode n (idOf mode m) = idOf mode (m + n) := by
  unfold renumber
  rw [numberOf_idOf]

theorem map_renumber_idsAfter (mode : Mode) (m n k : Nat) :
    (idsAfter mode m k).map (renumber mode n) = idsAfter mode (m + n) k := by
  have hid : ∀ j, idOf mode (m + j + 1 + n) = idOf mode (m + n + j + 1) := by
    intro j
    congr 1
    omega
  simp [idsAfter, Function.comp_def, hid]

end PromptStudio
