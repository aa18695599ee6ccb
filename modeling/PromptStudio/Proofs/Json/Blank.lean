import PromptStudio.Json.Reader
import PromptStudio.Proofs.Text.Utf8
import PromptStudio.Text.Blank

/-!
# Blank texts are no JSON

More characters are blank than JSON allows around a value, but no value starts with an octet of a
blank character. So a text that can be read is not blank (`not_blank_of_ofText?`).
-/

namespace PromptStudio

open Json.Reader

/-- An octet of a blank character: a control character, a space, or part of a longer character. -/
def IsBlankOctet (b : UInt8) : Prop := b.toNat ≤ 0x20 ∨ 0x80 ≤ b.toNat

theorem isBlankOctet_of_isBlank {c : Char} (h : Text.isBlank c) :
    ∀ b ∈ String.utf8EncodeChar c, IsBlankOctet b := by
  have hcode : c.toNat ≤ 0x20 ∨ 0x80 ≤ c.toNat := by
    simp only [Text.isBlank, Bool.or_eq_true, Bool.and_eq_true, decide_eq_true_eq,
      beq_iff_eq] at h
    omega
  have hnat : c.val.toNat = c.toNat := rfl
  have hbyte : ∀ n < 0x100, (UInt8.ofNat n).toNat = n := fun n hn => Nat.mod_eq_of_lt hn
  intro b hb
  unfold String.utf8EncodeChar at hb
  dsimp only at hb
  rw [hnat] at hb
  split at hb
  case isTrue =>
    obtain rfl := List.mem_singleton.mp hb
    rw [IsBlankOctet, hbyte _ (by omega)]
    exact hcode
  -- A character of several octets has none below 0x80.
  split at hb
  case isTrue =>
    simp only [List.mem_cons, List.not_mem_nil, or_false] at hb
    rcases hb with rfl | rfl <;> exact .inr (by rw [hbyte _ (by omega)]; omega)
  split at hb
  case isTrue =>
    simp only [List.mem_cons, List.not_mem_nil, or_false] at hb
    rcases hb with rfl | rfl | rfl <;> exact .inr (by rw [hbyte _ (by omega)]; omega)
  case isFalse =>
    simp only [List.mem_cons, List.not_mem_nil, or_false] at hb
    rcases hb with rfl | rfl | rfl | rfl <;> exact .inr (by rw [hbyte _ (by omega)]; omega)

namespace Json.Reader

variable {bs : List UInt8}

theorem unsigned?_eq_none (h : ∀ b ∈ bs.head?, IsBlankOctet b) (negative : Bool) :
    unsigned? negative bs = none := by
  have hrun : bs.takeWhile isDigit = [] := by
    cases bs with
    | nil => rfl
    | cons b bs =>
      have hb : b.toNat ≤ 0x20 ∨ 0x80 ≤ b.toNat := h b rfl
      refine List.takeWhile_cons_of_neg ?_
      simp only [isDigit, Bool.and_eq_true, decide_eq_true_eq, UInt8.le_iff_toNat_le]
      show ¬ (0x30 ≤ b.toNat ∧ b.toNat ≤ 0x39)
      omega
  rw [unsigned?, integerPart?, takeDigitRun, hrun]
  rfl

/-- No value starts with an octet of a blank character. -/
theorem value?_eq_none (h : ∀ b ∈ bs.head?, IsBlankOctet b) (fuel room : Nat) :
    value? fuel room bs = none := by
  have hne : ∀ b rest, bs = b :: rest → ¬ (0x20 < b.toNat ∧ b.toNat < 0x80) := by
    rintro b rest rfl hb
    have hoctet : b.toNat ≤ 0x20 ∨ 0x80 ≤ b.toNat := h b rfl
    omega
  cases fuel with
  | zero => rw [value?]
  | succ fuel =>
    unfold value?
    split
    · exact absurd (by decide) (hne _ _ rfl)
    · exact absurd (by decide) (hne _ _ rfl)
    · exact absurd (by decide) (hne _ _ rfl)
    unfold scalar?
    split
    · exact absurd (by decide) (hne _ _ rfl)
    · exact absurd (by decide) (hne _ _ rfl)
    · exact absurd (by decide) (hne _ _ rfl)
    · exact absurd (by decide) (hne _ _ rfl)
    · exact unsigned?_eq_none h false

end Json.Reader

/-- A text that can be read is not blank. -/
theorem not_blank_of_ofText? {text : String} {v : Value} (h : Value.ofText? text = some v) :
    ¬ text.toList.all Text.isBlank := by
  intro hblank
  have hoctet : ∀ b ∈ Text.octets text, IsBlankOctet b := by
    intro b hb
    rw [Text.octets_eq] at hb
    obtain ⟨c, hc, hb⟩ := List.mem_flatMap.mp hb
    exact isBlankOctet_of_isBlank (List.all_eq_true.mp hblank c hc) b hb
  have hhead : ∀ b ∈ (skipGap (Text.octets text)).head?, IsBlankOctet b := by
    intro b hb
    exact hoctet b ((List.dropWhile_sublist isGap).subset (List.mem_of_mem_head? hb))
  have hread : Source.ofText text = none := by
    rw [Source.ofText, Source.read, value?_eq_none hhead]
  rw [Value.ofText?, hread] at h
  cases h

end PromptStudio
