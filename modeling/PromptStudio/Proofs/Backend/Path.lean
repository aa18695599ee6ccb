import Mathlib.Data.List.Flatten
import PromptStudio.Proofs.Backend.Escape

/-!
# Paths

A path is cut into segments at its slashes, and its dot segments are resolved. What is put below
resolved segments is kept as it is exactly if it has neither dot segments nor backslashes
(`joined_resolve_eq_iff`): a dot segment always makes the path shorter
(`length_joined_resolve_add_countP`), and a backslash counts as a slash.
-/

namespace PromptStudio.Url

/-! ## Segments -/

/-- Ends a segment. -/
def isSlash (c : Char) : Bool := c == '/' || c == '\\'

/-- The segments of a path. -/
def segments (cs : List Char) : List (List Char) := cs.splitOnP isSlash

/-- Does not stand for itself. -/
def isDots (segment : List Char) : Bool := isHere segment || isAbove segment

/-- Segments written one after the other, a slash before each. -/
def joined (segments : List (List Char)) : List Char := segments.flatMap ('/' :: ·)

theorem modifyHead_nil_append (ss : List (List Char)) :
    ss.modifyHead (([] : List Char) ++ ·) = ss := by
  cases ss <;> rfl

/-- Segments read with a part of the first one already taken are those of the whole. -/
theorem segmentsFrom_eq (isSlash : Char → Bool) (current cs : List Char) :
    segmentsFrom isSlash current cs =
      (cs.splitOnP isSlash).modifyHead (current.reverse ++ ·) := by
  induction cs generalizing current with
  | nil => simp [segmentsFrom]
  | cons c cs ih =>
    rw [segmentsFrom, List.splitOnP_cons_eq_if_modifyHead]
    split
    · rw [ih, List.reverse_nil, modifyHead_nil_append]
      simp
    · rw [ih, List.modifyHead_modifyHead]
      congr 1
      funext s
      simp

theorem segmentsFrom_nil (cs : List Char) : segmentsFrom isSlash [] cs = segments cs := by
  rw [segmentsFrom_eq, List.reverse_nil, modifyHead_nil_append]
  rfl

theorem segments_append_cons (xs : List Char) {c : Char} (hc : isSlash c = true)
    (ys : List Char) : segments (xs ++ c :: ys) = segments xs ++ segments ys :=
  List.splitOnP_append_cons xs ys hc

theorem segments_ne_nil (cs : List Char) : segments cs ≠ [] := List.splitOnP_ne_nil _ _

theorem joined_append (xs ys : List (List Char)) : joined (xs ++ ys) = joined xs ++ joined ys :=
  List.flatMap_append

/-- A backslash is written as a slash. -/
def forward (c : Char) : Char := if isSlash c then '/' else c

theorem joined_map_escape_segments (cs : List Char) :
    joined ((segments cs).map (escape pathMarks)) = '/' :: escape pathMarks (cs.map forward) := by
  induction cs with
  | nil => rfl
  | cons c cs ih =>
    unfold segments at ih ⊢
    rw [List.splitOnP_cons_eq_if_modifyHead, List.map_cons, escape_cons]
    by_cases hc : isSlash c = true
    · rw [if_pos hc, List.map_cons]
      show '/' :: (escape pathMarks [] ++ joined _) = _
      rw [ih, forward, if_pos hc]
      rfl
    · obtain ⟨s, ss, hs⟩ := List.exists_cons_of_ne_nil (List.splitOnP_ne_nil isSlash cs)
      rw [hs] at ih ⊢
      rw [if_neg hc, List.modifyHead_cons, List.map_cons, escape_cons, forward, if_neg hc]
      have hjoined : escape pathMarks s ++ joined (ss.map (escape pathMarks)) =
          escape pathMarks (cs.map forward) := List.cons.inj ih |>.2
      show '/' :: (escape pathMarks [c] ++ escape pathMarks s ++ joined _) = _
      rw [List.append_assoc, hjoined]

/-- Only a path without backslashes is written with the slashes that it has. -/
theorem escape_map_forward_eq_iff {cs : List Char} :
    escape pathMarks (cs.map forward) = escape pathMarks cs ↔ '\\' ∉ cs := by
  induction cs with
  | nil => simp
  | cons c cs ih =>
    rw [List.map_cons, escape_cons, escape_cons _ c, List.mem_cons, not_or, ← ih]
    by_cases hc : c = '\\'
    · subst hc
      simp [escape, forward, isSlash, isForeign, pathMarks]
    · have hforward : forward c = c := by
        by_cases hslash : c = '/' <;> simp [forward, isSlash, hc, hslash]
      rw [hforward, List.append_cancel_left_eq]
      exact ⟨fun h => ⟨Ne.symm hc, h⟩, And.right⟩

/-! ## Lengths -/

theorem length_joined_cons (s : List Char) (ss : List (List Char)) :
    (joined (s :: ss)).length = s.length + 1 + (joined ss).length := by
  simp [joined]
  omega

theorem length_joined_tail_le (ss : List (List Char)) :
    (joined ss.tail).length ≤ (joined ss).length := by
  cases ss with
  | nil => exact Nat.le_refl _
  | cons s ss =>
    rw [length_joined_cons, List.tail_cons]
    omega

theorem length_joined_reverse (ss : List (List Char)) :
    (joined ss.reverse).length = (joined ss).length := by
  induction ss with
  | nil => rfl
  | cons s ss ih =>
    rw [List.reverse_cons, joined_append, List.length_append, ih, length_joined_cons,
      length_joined_cons]
    exact Nat.add_comm _ _

theorem length_escape_cons (marks : List Char) (c : Char) (cs : List Char) :
    (escape marks cs).length < (escape marks (c :: cs)).length := by
  rw [escape_cons marks c cs, List.length_append]
  have hpos := List.length_pos_of_ne_nil (escape_singleton_ne_nil marks c)
  omega

/-- To leave characters out makes what is written shorter. -/
theorem eq_of_length_escape_le {marks xs ys : List Char} (h : xs.Sublist ys)
    (hlength : (escape marks ys).length ≤ (escape marks xs).length) : xs = ys := by
  induction h with
  | slnil => rfl
  | @cons xs ys c h _ =>
    have hless := length_escape_cons marks c ys
    have hle : (escape marks xs).length ≤ (escape marks ys).length := (h.flatMap _).length_le
    omega
  | @cons_cons xs ys c _ ih =>
    rw [escape_cons marks c xs, escape_cons marks c ys, List.length_append,
      List.length_append] at hlength
    rw [ih (by omega)]

theorem length_escape_map_forward (cs : List Char) :
    (escape pathMarks (cs.map forward)).length = (escape pathMarks cs).length := by
  induction cs with
  | nil => rfl
  | cons c cs ih =>
    have hc : (escape pathMarks [forward c]).length = (escape pathMarks [c]).length := by
      unfold forward isSlash
      split
      case isTrue h =>
        rcases (by simpa using h : c = '/' ∨ c = '\\') with rfl | rfl <;> decide
      case isFalse => rfl
    rw [List.map_cons, escape_cons pathMarks (forward c), escape_cons pathMarks c cs,
      List.length_append, List.length_append, hc, ih]

/-! ## Dot segments -/

/-- The segments resolved so far, after one that is not the last. -/
def climb (above : List (List Char)) (s : List Char) : List (List Char) :=
  if isAbove s then above.tail
  else if isHere s then above
  else escape pathMarks s :: above

/-- Segments at the start of a path only matter through what they resolve to. -/
theorem resolve_append (above xs : List (List Char)) {ys : List (List Char)} (hys : ys ≠ []) :
    resolve above (xs ++ ys) = resolve (xs.foldl climb above) ys := by
  induction xs generalizing above with
  | nil => rfl
  | cons x xs ih =>
    have hmore : (xs ++ ys).isEmpty = false := by simp [hys]
    rw [List.cons_append, resolve, List.foldl_cons, ← ih, climb]
    simp only [hmore, Bool.false_eq_true, if_false, List.nil_append]
    split
    · rfl
    · split <;> rfl

/-- A path that goes on behind a slash is resolved below what the part before that slash resolves
to. -/
theorem pathText_append_cons {cs : List Char} (hcs : ∀ c ∈ cs.head?, isSlash c = true) :
    ∃ above, ∀ rest, pathText isSlash (cs ++ '/' :: rest) =
      String.ofList (joined (resolve above (segments rest))) := by
  cases cs with
  | nil =>
    refine ⟨[], fun rest => ?_⟩
    show String.ofList (joined (resolve [] (segmentsFrom isSlash [] rest))) = _
    rw [segmentsFrom_nil]
  | cons c cs =>
    have hc : isSlash c = true := hcs c rfl
    refine ⟨(segments cs).foldl climb [], fun rest => ?_⟩
    have hslash : isSlash '/' = true := by decide
    rw [← resolve_append _ _ (segments_ne_nil rest), ← segments_append_cons cs hslash rest]
    simp only [pathText, List.cons_append, hc, if_true, segmentsFrom_nil]
    rfl

theorem resolve_of_forall_not (above : List (List Char)) {ys : List (List Char)}
    (h : ∀ y ∈ ys, isDots y = false) :
    resolve above ys = above.reverse ++ ys.map (escape pathMarks) := by
  induction ys generalizing above with
  | nil => simp [resolve]
  | cons y ys ih =>
    rw [List.forall_mem_cons, isDots, Bool.or_eq_false_iff] at h
    obtain ⟨⟨hhere, habove⟩, hys⟩ := h
    rw [resolve, habove, hhere]
    simp [ih _ hys]

/-- Every dot segment makes the path shorter. -/
theorem length_joined_resolve_add_countP (above ys : List (List Char)) :
    (joined (resolve above ys)).length + ys.countP isDots ≤
      (joined above).length + (joined (ys.map (escape pathMarks))).length := by
  induction ys generalizing above with
  | nil => simp [resolve, joined]
  | cons y ys ih =>
    rw [List.countP_cons, List.map_cons, length_joined_cons, resolve]
    by_cases hdots : isDots y = true
    · -- the segment is not written; an empty one may be, at the end of the path
      have hy : 0 < (escape pathMarks y).length := by
        cases y with
        | nil => exact absurd hdots (by decide)
        | cons c cs => exact Nat.zero_lt_of_lt (length_escape_cons pathMarks c cs)
      have hclosing : ∀ kept : List (List Char), (joined kept).length ≤ (joined above).length →
          (joined (resolve ((if ys.isEmpty then [[]] else []) ++ kept) ys)).length +
              ys.countP isDots ≤
            (joined above).length + 1 + (joined (ys.map (escape pathMarks))).length := by
        intro kept hkept
        have ih := ih ((if ys.isEmpty then [[]] else []) ++ kept)
        rw [joined_append, List.length_append] at ih
        have hempty : (joined (if ys.isEmpty then [[]] else [])).length ≤ 1 := by
          split <;> decide
        omega
      rw [if_pos hdots]
      split
      · have := hclosing above.tail (length_joined_tail_le above)
        omega
      · rename_i habove
        have hhere : isHere y = true := (Bool.or_eq_true _ _ ▸ hdots).resolve_right habove
        rw [if_pos hhere]
        have := hclosing above (Nat.le_refl _)
        omega
    · obtain ⟨hhere, habove⟩ := Bool.or_eq_false_iff.mp (Bool.not_eq_true _ ▸ hdots)
      have ih := ih (escape pathMarks y :: above)
      rw [length_joined_cons] at ih
      rw [if_neg (by simp [habove]), if_neg (by simp [hhere]), if_neg hdots]
      omega

/-- What is put below resolved segments is kept as it is exactly if nothing is left out of it and it
has neither backslashes nor dot segments. -/
theorem joined_resolve_eq_iff (above : List (List Char)) {sent cs : List Char}
    (h : sent.Sublist cs) :
    joined (resolve above (segments sent)) = joined above.reverse ++ '/' :: escape pathMarks cs ↔
      sent = cs ∧ '\\' ∉ cs ∧ ∀ s ∈ segments cs, isDots s = false := by
  constructor
  · intro hkept
    have hlength := congrArg List.length hkept
    have hdots := length_joined_resolve_add_countP above (segments sent)
    have hsent : (escape pathMarks sent).length ≤ (escape pathMarks cs).length :=
      (h.flatMap _).length_le
    rw [joined_map_escape_segments, List.length_cons, length_escape_map_forward] at hdots
    rw [List.length_append, List.length_cons, length_joined_reverse] at hlength
    have hcs : (escape pathMarks cs).length ≤ (escape pathMarks sent).length := by omega
    obtain rfl := eq_of_length_escape_le h hcs
    have hnone : (segments sent).countP isDots = 0 := by omega
    have hplain : ∀ s ∈ segments sent, isDots s = false := by
      simpa using List.countP_eq_zero.mp hnone
    rw [resolve_of_forall_not above hplain, joined_append, List.append_cancel_left_eq,
      joined_map_escape_segments, List.cons_inj_right, escape_map_forward_eq_iff] at hkept
    exact ⟨rfl, hkept, hplain⟩
  · rintro ⟨rfl, hslash, hplain⟩
    rw [resolve_of_forall_not above hplain, joined_append, joined_map_escape_segments,
      escape_map_forward_eq_iff.mpr hslash]

end PromptStudio.Url
