import Mathlib.Data.List.Basic
import PromptStudio.Text.Lossy

/-!
# Text read back from its octets

Octets that are a text in UTF-8 are read as that text (`lossy_octets`): the octets of one character
are read as it (`lossy_encode`), whatever follows them.
-/

namespace PromptStudio.Text

/-! ## Characters of one to four octets -/

/-- Continues a character. -/
def IsTail (b : UInt8) : Prop := 0x80 ≤ b.toNat ∧ b.toNat ≤ 0xBF

theorem lossyFrom_last (low high : UInt8) {b : UInt8} (hlow : low.toNat ≤ b.toNat)
    (hhigh : b.toNat ≤ high.toNat) (bits : Nat) (bs : List UInt8) :
    lossyFrom (some ⟨1, low, high, bits⟩) (b :: bs) =
      Char.ofNat (bits * 64 + (b.toNat - 0x80)) :: lossy bs := by
  have hb : (decide (low ≤ b) && decide (b ≤ high)) = true := by
    simp [UInt8.le_iff_toNat_le, hlow, hhigh]
  rw [lossyFrom, step, if_pos hb]
  rfl

theorem lossyFrom_next (low high : UInt8) {b : UInt8} (hlow : low.toNat ≤ b.toNat)
    (hhigh : b.toNat ≤ high.toNat) (n bits : Nat) (bs : List UInt8) :
    lossyFrom (some ⟨n + 2, low, high, bits⟩) (b :: bs) =
      lossyFrom (some ⟨n + 1, 0x80, 0xBF, bits * 64 + (b.toNat - 0x80)⟩) bs := by
  have hb : (decide (low ≤ b) && decide (b ≤ high)) = true := by
    simp [UInt8.le_iff_toNat_le, hlow, hhigh]
  rw [lossyFrom, step, if_pos hb, if_neg (by simp)]
  rfl

theorem lossy_opens {b : UInt8} {p : Opened} (h : lead b = .opens p) (bs : List UInt8) :
    lossy (b :: bs) = lossyFrom (some p) bs := by
  rw [lossy, lossyFrom, step, fresh, h]
  rfl

theorem lossy_pair {a b : UInt8} (ha : 0xC2 ≤ a.toNat ∧ a.toNat < 0xE0) (hb : IsTail b)
    (bs : List UInt8) :
    lossy (a :: b :: bs) = Char.ofNat ((a.toNat - 0xC0) * 64 + (b.toNat - 0x80)) :: lossy bs := by
  have hlead : lead a = .opens ⟨1, 0x80, 0xBF, a.toNat - 0xC0⟩ := by
    unfold lead
    dsimp only
    rw [if_neg (by omega), if_neg (by omega), if_pos (by omega)]
  rw [lossy_opens hlead, lossyFrom_last 0x80 0xBF hb.1 hb.2]

/-- The first of three octets narrows the bounds of the second. -/
theorem lead_of_three {a b : UInt8} (ha : 0xE0 ≤ a.toNat ∧ a.toNat < 0xF0) (hb : IsTail b)
    (hlow : a.toNat = 0xE0 → 0xA0 ≤ b.toNat) (hhigh : a.toNat = 0xED → b.toNat ≤ 0x9F) :
    ∃ low high : UInt8, lead a = .opens ⟨2, low, high, a.toNat - 0xE0⟩ ∧
      low.toNat ≤ b.toNat ∧ b.toNat ≤ high.toNat := by
  unfold lead
  dsimp only
  rw [if_neg (by omega), if_neg (by omega), if_neg (by omega)]
  by_cases h0 : a.toNat = 0xE0
  · rw [if_pos (by simp [h0]), h0]
    exact ⟨0xA0, 0xBF, rfl, hlow h0, hb.2⟩
  rw [if_neg (by simp [h0])]
  by_cases hD : a.toNat = 0xED
  · rw [if_pos (by simp [hD]), hD]
    exact ⟨0x80, 0x9F, rfl, hb.1, hhigh hD⟩
  rw [if_neg (by simp [hD]), if_pos ha.2]
  exact ⟨0x80, 0xBF, rfl, hb.1, hb.2⟩

theorem lossy_triple {a b c : UInt8} (ha : 0xE0 ≤ a.toNat ∧ a.toNat < 0xF0) (hb : IsTail b)
    (hc : IsTail c) (hlow : a.toNat = 0xE0 → 0xA0 ≤ b.toNat)
    (hhigh : a.toNat = 0xED → b.toNat ≤ 0x9F) (bs : List UInt8) :
    lossy (a :: b :: c :: bs) =
      Char.ofNat (((a.toNat - 0xE0) * 64 + (b.toNat - 0x80)) * 64 + (c.toNat - 0x80)) ::
        lossy bs := by
  obtain ⟨low, high, hlead, hl, hh⟩ := lead_of_three ha hb hlow hhigh
  rw [lossy_opens hlead, lossyFrom_next low high hl hh, lossyFrom_last 0x80 0xBF hc.1 hc.2]

/-- The first of four octets narrows the bounds of the second. -/
theorem lead_of_four {a b : UInt8} (ha : 0xF0 ≤ a.toNat ∧ a.toNat ≤ 0xF4) (hb : IsTail b)
    (hlow : a.toNat = 0xF0 → 0x90 ≤ b.toNat) (hhigh : a.toNat = 0xF4 → b.toNat ≤ 0x8F) :
    ∃ low high : UInt8, lead a = .opens ⟨3, low, high, a.toNat - 0xF0⟩ ∧
      low.toNat ≤ b.toNat ∧ b.toNat ≤ high.toNat := by
  unfold lead
  dsimp only
  rw [if_neg (by omega), if_neg (by omega), if_neg (by omega), if_neg (by simp; omega),
    if_neg (by simp; omega), if_neg (by omega)]
  by_cases h0 : a.toNat = 0xF0
  · rw [if_pos (by simp [h0]), h0]
    exact ⟨0x90, 0xBF, rfl, hlow h0, hb.2⟩
  rw [if_neg (by simp [h0])]
  by_cases h4 : a.toNat = 0xF4
  · rw [if_neg (by omega), if_pos (by simp [h4]), h4]
    exact ⟨0x80, 0x8F, rfl, hb.1, hhigh h4⟩
  rw [if_pos (by omega)]
  exact ⟨0x80, 0xBF, rfl, hb.1, hb.2⟩

theorem lossy_quadruple {a b c d : UInt8} (ha : 0xF0 ≤ a.toNat ∧ a.toNat ≤ 0xF4) (hb : IsTail b)
    (hc : IsTail c) (hd : IsTail d) (hlow : a.toNat = 0xF0 → 0x90 ≤ b.toNat)
    (hhigh : a.toNat = 0xF4 → b.toNat ≤ 0x8F) (bs : List UInt8) :
    lossy (a :: b :: c :: d :: bs) =
      Char.ofNat ((((a.toNat - 0xF0) * 64 + (b.toNat - 0x80)) * 64 + (c.toNat - 0x80)) * 64 +
        (d.toNat - 0x80)) :: lossy bs := by
  obtain ⟨low, high, hlead, hl, hh⟩ := lead_of_four ha hb hlow hhigh
  rw [lossy_opens hlead, lossyFrom_next low high hl hh, lossyFrom_next 0x80 0xBF hc.1 hc.2,
    lossyFrom_last 0x80 0xBF hd.1 hd.2]

/-! ## Characters and texts -/

theorem lossy_encode (c : Char) (bs : List UInt8) :
    lossy (String.utf8EncodeChar c ++ bs) = c :: lossy bs := by
  have hvalid : c.toNat < 0xD800 ∨ 0xDFFF < c.toNat ∧ c.toNat < 0x110000 := c.valid
  have hoctet : ∀ n < 256, (UInt8.ofNat n).toNat = n := fun n hn => Nat.mod_eq_of_lt hn
  have htail : ∀ n, IsTail (UInt8.ofNat (n % 64 + 0x80)) := by
    intro n
    unfold IsTail
    rw [hoctet _ (by omega)]
    omega
  have hnat : c.val.toNat = c.toNat := rfl
  unfold String.utf8EncodeChar
  dsimp only
  rw [hnat]
  split
  case isTrue h1 =>
    have hn : (UInt8.ofNat c.toNat).toNat = c.toNat := hoctet _ (by omega)
    show lossy ([] ++ UInt8.ofNat c.toNat :: bs) = _
    rw [lossy_append_ascii [] (by omega) bs, hn, Char.ofNat_toNat]
    rfl
  split
  case isTrue h2 =>
    have ha := hoctet (c.toNat / 64 % 32 + 0xC0) (by omega)
    have hb := hoctet (c.toNat % 64 + 0x80) (by omega)
    have hcode : (c.toNat / 64 % 32 + 0xC0 - 0xC0) * 64 + (c.toNat % 64 + 0x80 - 0x80) =
        c.toNat := by omega
    simp only [List.cons_append, List.nil_append]
    rw [lossy_pair (by omega) (htail _), ha, hb, hcode, Char.ofNat_toNat]
  split
  case isTrue h3 =>
    have ha := hoctet (c.toNat / 4096 % 16 + 0xE0) (by omega)
    have hb := hoctet (c.toNat / 64 % 64 + 0x80) (by omega)
    have hd := hoctet (c.toNat % 64 + 0x80) (by omega)
    have hcode : ((c.toNat / 4096 % 16 + 0xE0 - 0xE0) * 64 +
        (c.toNat / 64 % 64 + 0x80 - 0x80)) * 64 + (c.toNat % 64 + 0x80 - 0x80) =
        c.toNat := by omega
    simp only [List.cons_append, List.nil_append]
    rw [lossy_triple (by omega) (htail _) (htail _) (by omega) (by omega), ha, hb, hd, hcode,
      Char.ofNat_toNat]
  case isFalse h3 =>
    have ha := hoctet (c.toNat / 262144 % 8 + 0xF0) (by omega)
    have hb := hoctet (c.toNat / 4096 % 64 + 0x80) (by omega)
    have hd := hoctet (c.toNat / 64 % 64 + 0x80) (by omega)
    have he := hoctet (c.toNat % 64 + 0x80) (by omega)
    have hcode : (((c.toNat / 262144 % 8 + 0xF0 - 0xF0) * 64 +
        (c.toNat / 4096 % 64 + 0x80 - 0x80)) * 64 + (c.toNat / 64 % 64 + 0x80 - 0x80)) * 64 +
        (c.toNat % 64 + 0x80 - 0x80) = c.toNat := by omega
    simp only [List.cons_append, List.nil_append]
    rw [lossy_quadruple (by omega) (htail _) (htail _) (htail _) (by omega) (by omega), ha, hb,
      hd, he, hcode, Char.ofNat_toNat]

theorem toList_loop (b : ByteArray) (i : Nat) (taken : List UInt8) :
    ByteArray.toList.loop b i taken = taken.reverse ++ b.data.toList.drop i := by
  fun_induction ByteArray.toList.loop b i taken with
  | case1 i taken h ih =>
    have hi : i < b.data.toList.length := h
    have hget : b.get! i = b.data.toList[i] := getElem!_pos b.data i h
    rw [ih, List.drop_eq_getElem_cons hi, List.reverse_cons, List.append_assoc, hget]
    rfl
  | case2 i taken h =>
    have hi : b.data.toList.length ≤ i := Nat.le_of_not_lt h
    rw [List.drop_eq_nil_of_le hi, List.append_nil]

/-- The octets of a text are those of its characters. -/
theorem octets_eq (s : String) : octets s = s.toList.flatMap String.utf8EncodeChar := by
  unfold octets
  have hloop : s.toUTF8.toList = s.toUTF8.data.toList := toList_loop s.toUTF8 0 []
  rw [hloop, String.toUTF8_eq_toByteArray, ← String.utf8Encode_toList, List.utf8Encode,
    List.toList_data_toByteArray]

/-- A text is read back from its octets. -/
theorem lossy_octets (s : String) : lossy (octets s) = s.toList := by
  rw [octets_eq]
  induction s.toList with
  | nil => rfl
  | cons c cs ih => rw [List.flatMap_cons, lossy_encode, ih]

end PromptStudio.Text
