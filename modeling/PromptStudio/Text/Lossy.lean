/-!
# Reading octets as text

Octets are read as UTF-8 one at a time. `Opened` remembers a character whose first octets have
been seen; an octet that cannot continue it ends it, and every ill-formed part, as long as it
could still have become a character, is read as one replacement character. The main statement is
`lossy_append_ascii`: an octet below 128 always ends what came before, so text may be read in
pieces that are cut at such octets.
-/

namespace PromptStudio.Text

/-- Stands for octets that are not UTF-8. -/
def replacement : Char := '\uFFFD'

/-- A character of which some octets are still missing: how many, between which bounds the next one
has to lie, and the bits read so far. -/
structure Opened where
  missing : Nat
  low : UInt8
  high : UInt8
  bits : Nat

/-- What an octet at the start of a character means. -/
inductive Lead
  | whole (c : Char)
  | opens (p : Opened)
  | wrong

/-- Reads the first octet of a character. -/
def lead (b : UInt8) : Lead :=
  let n := b.toNat
  if n < 0x80 then .whole (Char.ofNat n)
  else if n < 0xC2 then .wrong
  else if n < 0xE0 then .opens ⟨1, 0x80, 0xBF, n - 0xC0⟩
  else if n == 0xE0 then .opens ⟨2, 0xA0, 0xBF, 0⟩
  else if n == 0xED then .opens ⟨2, 0x80, 0x9F, 0xD⟩
  else if n < 0xF0 then .opens ⟨2, 0x80, 0xBF, n - 0xE0⟩
  else if n == 0xF0 then .opens ⟨3, 0x90, 0xBF, 0⟩
  else if n < 0xF4 then .opens ⟨3, 0x80, 0xBF, n - 0xF0⟩
  else if n == 0xF4 then .opens ⟨3, 0x80, 0x8F, 4⟩
  else .wrong

/-- The octet `b` where a character starts: the characters it completes and what is left open. -/
def fresh (b : UInt8) : List Char × Option Opened :=
  match lead b with
  | .whole c => ([c], none)
  | .opens p => ([], some p)
  | .wrong => ([replacement], none)

/-- The octet `b` after what `p` leaves open. -/
def step (p : Option Opened) (b : UInt8) : List Char × Option Opened :=
  match p with
  | none => fresh b
  | some p =>
    if p.low ≤ b && b ≤ p.high then
      let bits := p.bits * 64 + (b.toNat - 0x80)
      if p.missing ≤ 1 then ([Char.ofNat bits], none)
      else ([], some ⟨p.missing - 1, 0x80, 0xBF, bits⟩)
    else
      let (cs, left) := fresh b
      (replacement :: cs, left)

/-- The text of the octets that follow what `p` leaves open. -/
def lossyFrom (p : Option Opened) : List UInt8 → List Char
  | [] => if p.isSome then [replacement] else []
  | b :: bs => (step p b).1 ++ lossyFrom (step p b).2 bs

/-- The text of octets, ill-formed parts replaced. -/
def lossy (bs : List UInt8) : List Char := lossyFrom none bs

/-- Whether octets are UTF-8 throughout. -/
def wellFormedFrom (p : Option Opened) : List UInt8 → Bool
  | [] => p.isNone
  | b :: bs =>
    match p with
    | none =>
      match lead b with
      | .whole _ => wellFormedFrom none bs
      | .opens q => wellFormedFrom (some q) bs
      | .wrong => false
    | some q => q.low ≤ b && b ≤ q.high && wellFormedFrom (step p b).2 bs

/-- The text of octets, if they are UTF-8 throughout. -/
def utf8? (bs : List UInt8) : Option String :=
  if wellFormedFrom none bs then some (String.ofList (lossy bs)) else none

/-- The octets of a text. -/
def octets (s : String) : List UInt8 := s.toUTF8.toList

/-! ## Cutting at an octet below 128 -/

theorem fresh_ascii {b : UInt8} (h : b.toNat < 0x80) : fresh b = ([Char.ofNat b.toNat], none) := by
  simp [fresh, lead, h]

/-- Bounds of a continuation are never below 128. -/
def Opened.Sound (p : Opened) : Prop := 0x80 ≤ p.low.toNat

theorem sound_of_lead {b : UInt8} {p : Opened} (h : lead b = .opens p) : p.Sound := by
  simp only [lead] at h
  repeat' split at h
  all_goals cases h
  all_goals simp [Opened.Sound]

theorem sound_of_fresh {b : UInt8} {p : Opened} (h : (fresh b).2 = some p) : p.Sound := by
  unfold fresh at h
  cases hl : lead b with
  | whole c => simp [hl] at h
  | wrong => simp [hl] at h
  | opens q =>
    simp only [hl, Option.some.injEq] at h
    exact h ▸ sound_of_lead hl

/-- What a step leaves open is sound again. -/
theorem sound_of_step {p : Option Opened} {b : UInt8} {q : Opened} (h : (step p b).2 = some q) :
    q.Sound := by
  cases p with
  | none => exact sound_of_fresh h
  | some p =>
    simp only [step] at h
    split at h
    · split at h
      · simp at h
      · simp only [Option.some.injEq] at h
        subst h
        simp [Opened.Sound]
    · exact sound_of_fresh h

theorem step_ascii {p : Option Opened} (hp : ∀ q ∈ p, q.Sound) {b : UInt8} (h : b.toNat < 0x80) :
    step p b = (lossyFrom p [] ++ [Char.ofNat b.toNat], none) := by
  cases p with
  | none => simp [step, lossyFrom, fresh_ascii h]
  | some q =>
    have hq : 0x80 ≤ q.low.toNat := hp q rfl
    have hlow : ¬ q.low ≤ b := by
      simp only [UInt8.le_iff_toNat_le]
      omega
    simp [step, hlow, fresh_ascii h, lossyFrom]

theorem lossyFrom_append_ascii {p : Option Opened} (hp : ∀ q ∈ p, q.Sound) (xs : List UInt8)
    {b : UInt8} (h : b.toNat < 0x80) (ys : List UInt8) :
    lossyFrom p (xs ++ b :: ys) = lossyFrom p xs ++ Char.ofNat b.toNat :: lossy ys := by
  induction xs generalizing p with
  | nil => simp [lossyFrom, step_ascii hp h, lossy]
  | cons x xs ih =>
    simp only [List.cons_append, lossyFrom, List.append_assoc]
    rw [ih fun q hq => sound_of_step hq]

/-- Reading may stop at an octet below 128 and begin anew behind it. -/
theorem lossy_append_ascii (xs : List UInt8) {b : UInt8} (h : b.toNat < 0x80) (ys : List UInt8) :
    lossy (xs ++ b :: ys) = lossy xs ++ Char.ofNat b.toNat :: lossy ys :=
  lossyFrom_append_ascii (by simp) xs h ys

end PromptStudio.Text
