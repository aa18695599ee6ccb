import PromptStudio.Backend.Url
import PromptStudio.Proofs.Text.Utf8

/-!
# Escapes are read back

A path writes some characters as percent signs and digits. `unescape` reads them as a server does.
What is written of a text is read back as that text, unless the text holds escapes of its own
(`unescape_escape`): percent signs are left as they are, so "a b" and "a%20b" are written alike.
-/

namespace PromptStudio.Url

/-! ## Reading escapes -/

/-- The value of a digit of an escape, in either case. -/
def digit? (c : Char) : Option Nat :=
  if '0' ≤ c ∧ c ≤ '9' then some (c.toNat - 0x30)
  else if 'A' ≤ c ∧ c ≤ 'F' then some (c.toNat - 0x37)
  else if 'a' ≤ c ∧ c ≤ 'f' then some (c.toNat - 0x57)
  else none

/-- The octet that two digits behind a percent sign stand for. -/
def octet? (high low : Char) : Option UInt8 :=
  match digit? high, digit? low with
  | some h, some l => some (UInt8.ofNat (16 * h + l))
  | _, _ => none

/-- The octets of a text with its escapes read. -/
def unescape : List Char → List UInt8
  | '%' :: h :: l :: cs =>
    match octet? h l with
    | some b => b :: unescape cs
    | none => String.utf8EncodeChar '%' ++ unescape (h :: l :: cs)
  | c :: cs => String.utf8EncodeChar c ++ unescape cs
  | [] => []

/-- There is no percent sign with two digits behind it. -/
def Escapeless (cs : List Char) : Prop :=
  ∀ h l, ['%', h, l] <:+: cs → octet? h l = none

theorem unescape_of_octet? {h l : Char} {b : UInt8} (hb : octet? h l = some b) (cs : List Char) :
    unescape ('%' :: h :: l :: cs) = b :: unescape cs := by
  rw [unescape]
  simp only [hb]

theorem unescape_of_ne {c : Char} (hc : c ≠ '%') (cs : List Char) :
    unescape (c :: cs) = String.utf8EncodeChar c ++ unescape cs := by
  rw [unescape]
  intro h l rest heq
  exact absurd heq hc

/-- A percent sign without two digits behind it stands for itself. -/
theorem unescape_percent {cs : List Char}
    (h : ∀ x y rest, cs = x :: y :: rest → octet? x y = none) :
    unescape ('%' :: cs) = String.utf8EncodeChar '%' ++ unescape cs := by
  match cs with
  | [] | [_] => rfl
  | x :: y :: rest =>
    rw [unescape]
    simp only [h x y rest rfl]

theorem Escapeless.tail {c : Char} {cs : List Char} (h : Escapeless (c :: cs)) : Escapeless cs :=
  fun x y hpart => h x y (hpart.trans (List.suffix_cons c cs).isInfix)

theorem escapeless_of_not_mem {cs : List Char} (h : '%' ∉ cs) : Escapeless cs :=
  fun _ _ hpart => absurd (hpart.subset List.mem_cons_self) h

/-! ## Writing escapes -/

variable {marks : List Char}

theorem escape_cons (marks : List Char) (c : Char) (cs : List Char) :
    escape marks (c :: cs) = escape marks [c] ++ escape marks cs := by
  simp [escape]

theorem escape_append (marks xs ys : List Char) :
    escape marks (xs ++ ys) = escape marks xs ++ escape marks ys :=
  List.flatMap_append

/-- A character is written as itself or as the escapes of its octets. -/
theorem escape_singleton (marks : List Char) (c : Char) :
    escape marks [c] = [c] ∨
      escape marks [c] = (String.utf8EncodeChar c).flatMap escapeOctet := by
  unfold escape
  rw [List.flatMap_singleton, Text.octets_eq, String.toList_singleton, List.flatMap_singleton]
  split
  · exact .inr rfl
  · exact .inl rfl

/-- Nothing is dropped. -/
theorem escape_singleton_ne_nil (marks : List Char) (c : Char) : escape marks [c] ≠ [] := by
  rcases escape_singleton marks c with h | h
  · simp [h]
  · obtain ⟨b, bs, hoctets⟩ :=
      List.exists_cons_of_ne_nil (String.utf8EncodeChar_ne_nil : String.utf8EncodeChar c ≠ [])
    simp [h, hoctets, escapeOctet]

/-! ## What is written is read back -/

/-- An octet is read back from its escape. -/
theorem octet?_escapeDigit (b : UInt8) :
    octet? (escapeDigit (b.toNat / 16)) (escapeDigit (b.toNat % 16)) = some b := by
  have hdigit : ∀ n < 16, digit? (escapeDigit n) = some n := by decide
  have hb : b.toNat < 256 := b.toNat_lt
  have hval : 16 * (b.toNat / 16) + b.toNat % 16 = b.toNat := Nat.div_add_mod _ _
  simp only [octet?, hdigit _ (show b.toNat / 16 < 16 by omega),
    hdigit _ (show b.toNat % 16 < 16 by omega), hval, UInt8.ofNat_toNat]

theorem unescape_flatMap_escapeOctet (bs : List UInt8) (cs : List Char) :
    unescape (bs.flatMap escapeOctet ++ cs) = bs ++ unescape cs := by
  induction bs with
  | nil => rfl
  | cons b bs ih =>
    rw [List.flatMap_cons, List.append_assoc]
    show unescape ('%' :: _ :: _ :: (bs.flatMap escapeOctet ++ cs)) = _
    rw [unescape_of_octet? (octet?_escapeDigit b), ih, List.cons_append]

/-- A digit at the start of what is written is a digit of the text. -/
theorem eq_cons_of_escape {cs rest : List Char} {x : Char} (h : escape marks cs = x :: rest)
    (hx : digit? x ≠ none) : ∃ ds, cs = x :: ds ∧ escape marks ds = rest := by
  cases cs with
  | nil => cases h
  | cons d ds =>
    rw [escape_cons] at h
    rcases escape_singleton marks d with hd | hd
    · rw [hd] at h
      obtain ⟨rfl, hrest⟩ := List.cons.inj h
      exact ⟨ds, rfl, hrest⟩
    · -- the escape of a character starts with a percent sign
      obtain ⟨b, bs, hoctets⟩ :=
        List.exists_cons_of_ne_nil (String.utf8EncodeChar_ne_nil : String.utf8EncodeChar d ≠ [])
      rw [hd, hoctets] at h
      obtain ⟨rfl, _⟩ := List.cons.inj h
      exact absurd rfl hx

/-- A text without escapes of its own is read back from what is written of it. -/
theorem unescape_escape {cs : List Char} (h : Escapeless cs) :
    unescape (escape marks cs) = cs.flatMap String.utf8EncodeChar := by
  induction cs with
  | nil => rfl
  | cons c cs ih =>
    have ih := ih h.tail
    rw [escape_cons, List.flatMap_cons, ← ih]
    rcases escape_singleton marks c with hc | hc
    · rw [hc, List.singleton_append]
      by_cases hpercent : c = '%'
      · -- two digits behind it would be digits of the text
        subst hpercent
        refine unescape_percent fun x y rest hxy => ?_
        by_contra hoctet
        obtain ⟨hx, hy⟩ : digit? x ≠ none ∧ digit? y ≠ none := by
          constructor <;> intro hdigit <;> simp [octet?, hdigit] at hoctet
        obtain ⟨ds, rfl, hds⟩ := eq_cons_of_escape hxy hx
        obtain ⟨es, rfl, _⟩ := eq_cons_of_escape hds hy
        exact hoctet (h x y (List.prefix_append ['%', x, y] es).isInfix)
      · exact unescape_of_ne hpercent _
    · rw [hc, unescape_flatMap_escapeOctet]

/-- Texts without escapes of their own are written differently. -/
theorem escape_inj {s t : String} (hs : Escapeless s.toList) (ht : Escapeless t.toList)
    (h : escape marks s.toList = escape marks t.toList) : s = t := by
  have hread : ∀ s : String, Escapeless s.toList →
      unescape (escape marks s.toList) = Text.octets s := by
    intro s hs
    rw [Text.octets_eq, unescape_escape hs]
  have hoctets : Text.octets s = Text.octets t := by
    rw [← hread s hs, h, hread t ht]
  rw [← String.toList_inj, ← Text.lossy_octets, hoctets, Text.lossy_octets]

example : unescape "na%C3%AFve%2".toList = Text.octets "naïve%2" := by
  rw [Text.octets_eq]
  rfl

end PromptStudio.Url
