import Mathlib.Data.List.DropRight
import PromptStudio.Text.Blank
import PromptStudio.Text.Lossy

/-!
# Lines

A line feed is a character of its own in octets that are read as text: it is read from the octet
10 and from nothing else (`lineFeed_mem_lossy`), and that octet ends whatever came before it. So
octets may be cut into lines before or after they are read (`splitOn_lossy`).

`ended` takes from a list the pieces that a separator ends, and `unended` what stands behind the
last separator.
-/

namespace PromptStudio.Text

variable {α : Type}

/-! ## Pieces that a separator ends -/

/-- The pieces of `xs` that an element satisfying `p` ends, without these elements. -/
def ended (p : α → Bool) (xs : List α) : List (List α) := (xs.splitOnP p).dropLast

/-- What stands in `xs` behind the last element satisfying `p`. -/
def unended (p : α → Bool) (xs : List α) : List α := (xs.splitOnP p).getLastD []

theorem ended_of_forall_not {p : α → Bool} {xs : List α} (h : ∀ x ∈ xs, p x = false) :
    ended p xs = [] := by
  rw [ended, List.splitOnP_eq_singleton h]
  rfl

/-- The first separator ends the first piece. -/
theorem ended_append_cons {p : α → Bool} {xs : List α} (h : ∀ x ∈ xs, p x = false) {sep : α}
    (hsep : p sep = true) (ys : List α) : ended p (xs ++ sep :: ys) = xs :: ended p ys := by
  rw [ended, List.splitOnP_append_cons_of_forall_mem h sep hsep,
    List.dropLast_cons_of_ne_nil (List.splitOnP_ne_nil p ys)]
  rfl

theorem unended_of_forall_not {p : α → Bool} {xs : List α} (h : ∀ x ∈ xs, p x = false) :
    unended p xs = xs := by
  rw [unended, List.splitOnP_eq_singleton h]
  rfl

theorem unended_append_cons {p : α → Bool} (xs : List α) {sep : α} (hsep : p sep = true)
    (ys : List α) : unended p (xs ++ sep :: ys) = unended p ys := by
  rw [unended, unended, List.splitOnP_append_cons xs ys hsep, List.getLastD_eq_getLast?,
    List.getLastD_eq_getLast?, List.getLast?_append_of_ne_nil _ (List.splitOnP_ne_nil p ys)]

theorem length_ended (p : α → Bool) (xs : List α) : (ended p xs).length = xs.countP p := by
  have hpieces : (xs.splitOnP p).length = xs.countP p + 1 := by
    induction xs with
    | nil => rfl
    | cons x xs ih =>
      rw [List.splitOnP_cons_eq_if_modifyHead, List.countP_cons]
      split <;> simp [ih]
  rw [ended, List.length_dropLast, hpieces, Nat.add_sub_cancel]

/-- A separator is in no piece. -/
theorem not_mem_of_mem_splitOn [DecidableEq α] {a : α} {xs piece : List α}
    (h : piece ∈ xs.splitOn a) : a ∉ piece := by
  induction xs generalizing piece with
  | nil =>
    rw [List.splitOn_eq_singleton List.not_mem_nil, List.mem_singleton] at h
    exact h ▸ List.not_mem_nil
  | cons x xs ih =>
    rw [List.splitOn_cons_eq_if_modifyHead] at h
    obtain ⟨first, rest, hpieces⟩ := List.exists_cons_of_ne_nil (List.splitOn_ne_nil a xs)
    rw [hpieces] at h ih
    split at h
    case isTrue =>
      rcases List.mem_cons.mp h with rfl | h
      · exact List.not_mem_nil
      · exact ih h
    case isFalse hx =>
      rw [List.modifyHead_cons] at h
      rcases List.mem_cons.mp h with rfl | h
      · rw [List.mem_cons, not_or]
        exact ⟨fun heq => hx (by simp [heq]), ih List.mem_cons_self⟩
      · exact ih (List.mem_cons_of_mem _ h)

/-! ## Line feeds -/

/-- Of what is left open only characters behind the line feed can come. -/
def Opened.Above (p : Opened) : Prop := 10 < p.bits * 64 + (p.low.toNat - 0x80)

theorem above_of_lead {b : UInt8} {p : Opened} (h : lead b = .opens p) : p.Above := by
  simp only [lead] at h
  repeat' split at h
  all_goals cases h
  all_goals simp_all [Opened.Above]
  all_goals omega

theorem above_of_fresh {b : UInt8} {p : Opened} (h : (fresh b).2 = some p) : p.Above := by
  unfold fresh at h
  cases hl : lead b with
  | whole c => simp [hl] at h
  | wrong => simp [hl] at h
  | opens q =>
    simp only [hl, Option.some.injEq] at h
    exact h ▸ above_of_lead hl

theorem ofNat_of_lead {b : UInt8} {c : Char} (h : lead b = .whole c) : c = Char.ofNat b.toNat := by
  simp only [lead] at h
  split at h
  · exact (Lead.whole.inj h).symm
  · repeat' split at h
    all_goals cases h

theorem lineFeed_of_ofNat {n : Nat} (h : Char.ofNat n = '\n') : n = 10 := by
  by_cases hn : n.isValidChar
  · rw [Char.ofNat, dif_pos hn] at h
    exact congrArg Char.toNat h
  · rw [Char.ofNat, dif_neg hn] at h
    cases h

theorem lineFeed_mem_fresh {b : UInt8} (h : '\n' ∈ (fresh b).1) : b = 10 := by
  unfold fresh at h
  cases hl : lead b with
  | opens q => simp [hl] at h
  | wrong => simp [hl, replacement] at h
  | whole c =>
    rw [hl, List.mem_singleton, ofNat_of_lead hl] at h
    exact UInt8.toNat_inj.mp (lineFeed_of_ofNat h.symm)

/-- A step gives a line feed only for the octet 10. -/
theorem lineFeed_mem_step {p : Option Opened} (hp : ∀ q ∈ p, q.Above) {b : UInt8}
    (h : '\n' ∈ (step p b).1) : b = 10 := by
  cases p with
  | none => exact lineFeed_mem_fresh h
  | some p =>
    have habove : p.Above := hp p rfl
    simp only [step] at h
    split at h
    case isTrue hbounds =>
      split at h
      · have hbits := lineFeed_of_ofNat (List.mem_singleton.mp h).symm
        simp only [Bool.and_eq_true, decide_eq_true_eq, UInt8.le_iff_toNat_le] at hbounds
        unfold Opened.Above at habove
        omega
      · cases h
    case isFalse =>
      rcases List.mem_cons.mp h with h | h
      · cases h
      · exact lineFeed_mem_fresh h

theorem above_of_step {p : Option Opened} (hp : ∀ q ∈ p, q.Above) {b : UInt8} {r : Opened}
    (h : (step p b).2 = some r) : r.Above := by
  cases p with
  | none => exact above_of_fresh h
  | some p =>
    have habove : p.Above := hp p rfl
    simp only [step] at h
    split at h
    case isTrue hbounds =>
      split at h
      · cases h
      · cases h
        simp only [Bool.and_eq_true, decide_eq_true_eq, UInt8.le_iff_toNat_le] at hbounds
        simp only [Opened.Above] at habove ⊢
        omega
    case isFalse => exact above_of_fresh h

theorem lineFeed_mem_lossyFrom {p : Option Opened} (hp : ∀ q ∈ p, q.Above) {bs : List UInt8}
    (h : '\n' ∈ lossyFrom p bs) : 10 ∈ bs := by
  induction bs generalizing p with
  | nil =>
    rw [lossyFrom] at h
    split at h
    · cases List.mem_singleton.mp h
    · cases h
  | cons b bs ih =>
    rw [lossyFrom] at h
    rcases List.mem_append.mp h with h | h
    · exact lineFeed_mem_step hp h ▸ List.mem_cons_self
    · exact List.mem_cons_of_mem _ (ih (fun q hq => above_of_step hp hq) h)

/-- A line feed is read only from the octet 10. -/
theorem lineFeed_mem_lossy {bs : List UInt8} (h : '\n' ∈ lossy bs) : 10 ∈ bs :=
  lineFeed_mem_lossyFrom (by simp) h

/-- Octets may be cut at line feeds before or after they are read as text. -/
theorem splitOn_lossy (bs : List UInt8) :
    (lossy bs).splitOn '\n' = (bs.splitOn 10).map lossy := by
  -- By induction on the octets behind `xs`, of which none is a line feed.
  have key : ∀ bs xs : List UInt8, 10 ∉ xs →
      (lossy (xs ++ bs)).splitOn '\n' = ((xs ++ bs).splitOn 10).map lossy := by
    intro bs
    induction bs with
    | nil =>
      intro xs hxs
      rw [List.append_nil, List.splitOn_eq_singleton hxs,
        List.splitOn_eq_singleton fun h => hxs (lineFeed_mem_lossy h)]
      rfl
    | cons b bs ih =>
      intro xs hxs
      by_cases hb : b = 10
      · subst hb
        rw [lossy_append_ascii xs (by decide) bs, List.splitOn_append_cons_self_of_not_mem hxs,
          List.map_cons]
        show (lossy xs ++ '\n' :: lossy bs).splitOn '\n' = _
        rw [List.splitOn_append_cons_self_of_not_mem fun h => hxs (lineFeed_mem_lossy h)]
        exact congrArg (lossy xs :: ·) (ih [] List.not_mem_nil)
      · have hxs' : 10 ∉ xs ++ [b] := by
          intro h
          rcases List.mem_append.mp h with h | h
          · exact hxs h
          · exact hb (List.mem_singleton.mp h).symm
        rw [List.append_cons]
        exact ih (xs ++ [b]) hxs'
  exact key bs [] List.not_mem_nil

/-! ## The ends of lines -/

theorem dropEndWhile_concat_pos {p : Char → Bool} {c : Char} (h : p c = true) (cs : List Char) :
    dropEndWhile p (cs ++ [c]) = dropEndWhile p cs := by
  simp [dropEndWhile, h]

theorem dropEndWhile_concat_neg {p : Char → Bool} {c : Char} (h : p c = false) (cs : List Char) :
    dropEndWhile p (cs ++ [c]) = cs ++ [c] := by
  induction cs with
  | nil => simp [dropEndWhile_cons, h]
  | cons d ds ih => simp [dropEndWhile_cons, ih]

theorem dropEndWhile_eq_rdropWhile (p : Char → Bool) (cs : List Char) :
    dropEndWhile p cs = cs.rdropWhile p := by
  induction cs using List.reverseRecOn with
  | nil => rfl
  | append_singleton cs c ih =>
    by_cases h : p c = true
    · rw [dropEndWhile_concat_pos h, ih, List.rdropWhile_concat_pos p cs c h]
    · rw [dropEndWhile_concat_neg (by simpa using h), List.rdropWhile_concat_neg p cs c h]

/-- Nothing is dropped up to the last element that does not satisfy `p`. -/
theorem rdropWhile_append_cons {p : α → Bool} {x : α} (h : p x = false) (xs ys : List α) :
    (xs ++ x :: ys).rdropWhile p = xs ++ x :: ys.rdropWhile p := by
  induction ys using List.reverseRecOn with
  | nil => exact List.rdropWhile_concat_neg p xs x (by simp [h])
  | append_singleton ys y ih =>
    rw [← List.cons_append, ← List.append_assoc]
    by_cases hy : p y = true
    · rw [List.rdropWhile_concat_pos p _ y hy, List.rdropWhile_concat_pos p _ y hy, ih]
    · rw [List.rdropWhile_concat_neg p _ y hy, List.rdropWhile_concat_neg p _ y hy,
        List.append_assoc]
      rfl

end PromptStudio.Text
