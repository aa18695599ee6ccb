import PromptStudio.Stream.Control

/-!
# Live tokens

A token is live from when it is handed out until it is cancelled. `Sound` is the invariant of a
control: the only live token is the one held. `renew` and `abort` keep it, and after them
exactly the new token is live (`live_renew`), or none (`not_live_abort`).
-/

namespace PromptStudio.Control

variable {c : Control} {t u : Token}

/-- The token has been handed out and has not been cancelled. -/
def Live (c : Control) (t : Token) : Prop := c.cancelled[t]? = some false

/-- No token but the one held is live. -/
def Sound (c : Control) : Prop := ∀ t, c.Live t → c.current = some t

theorem Live.lt (h : c.Live t) : t < c.cancelled.length := (List.getElem?_eq_some_iff.mp h).1

theorem live_of_not_cancelled (hlt : t < c.cancelled.length) (h : c.isCancelled t = false) :
    c.Live t := by
  unfold isCancelled at h
  rw [List.getD_eq_getElem?_getD, List.getElem?_eq_getElem hlt, Option.getD_some] at h
  unfold Live
  rw [List.getElem?_eq_getElem hlt, h]

theorem Live.not_cancelled (h : c.Live t) : c.isCancelled t = false := by
  unfold isCancelled
  rw [List.getD_eq_getElem?_getD, h, Option.getD_some]

/-! ## Cancelling -/

@[simp] theorem length_cancel (c : Control) (t : Token) :
    (c.cancel t).cancelled.length = c.cancelled.length := by simp [cancel]

theorem live_cancel : (c.cancel t).Live u ↔ c.Live u ∧ u ≠ t := by
  unfold Live cancel
  by_cases h : u = t
  · subst h
    by_cases hlt : u < c.cancelled.length <;> simp [hlt]
  · have hne : ¬ t = u := fun e => h e.symm
    simp [h, hne]

/-- The control after the token held has been cancelled. -/
def dropped (c : Control) : Control := c.current.elim c c.cancel

@[simp] theorem length_dropped (c : Control) : c.dropped.cancelled.length = c.cancelled.length := by
  unfold dropped
  cases c.current <;> simp

theorem not_live_dropped (h : c.Sound) : ¬ c.dropped.Live t := by
  unfold dropped
  intro ht
  cases hc : c.current with
  | none =>
    rw [hc] at ht
    have hheld := h t ht
    rw [hc] at hheld
    cases hheld
  | some u =>
    rw [hc] at ht
    obtain ⟨hlive, hne⟩ := live_cancel.mp ht
    have hheld := h t hlive
    rw [hc, Option.some.injEq] at hheld
    exact hne hheld.symm

/-! ## Handing out and aborting -/

theorem renew_eq (c : Control) :
    c.renew = ({ cancelled := c.dropped.cancelled ++ [false], current := some c.cancelled.length },
      c.cancelled.length) := rfl

@[simp] theorem length_renew (c : Control) :
    c.renew.1.cancelled.length = c.cancelled.length + 1 := by simp [renew_eq]

@[simp] theorem length_abort (c : Control) : c.abort.1.cancelled.length = c.cancelled.length :=
  length_dropped c

theorem live_renew (h : c.Sound) : c.renew.1.Live t ↔ t = c.cancelled.length := by
  have hdead : ¬ c.dropped.cancelled[t]? = some false := not_live_dropped h
  rw [renew_eq, Live]
  rcases Nat.lt_trichotomy t c.cancelled.length with hlt | rfl | hgt
  · rw [List.getElem?_append_left (by simpa using hlt)]
    exact ⟨fun e => absurd e hdead, fun e => absurd hlt (e ▸ Nat.lt_irrefl _)⟩
  · rw [List.getElem?_append_right (by simp)]
    simp
  · rw [List.getElem?_append_right (by simpa using Nat.le_of_lt hgt)]
    have hpos : t - c.dropped.cancelled.length ≠ 0 := by
      rw [length_dropped]
      exact Nat.sub_ne_zero_of_lt hgt
    obtain ⟨k, hk⟩ := Nat.exists_eq_succ_of_ne_zero hpos
    rw [hk]
    simp [Nat.ne_of_gt hgt]

/-- A token handed out has not been cancelled yet. -/
theorem isCancelled_renew (c : Control) : c.renew.1.isCancelled c.renew.2 = false := by
  unfold isCancelled
  rw [renew_eq, List.getD_eq_getElem?_getD, List.getElem?_append_right (by simp)]
  simp

theorem not_live_abort (h : c.Sound) : ¬ c.abort.1.Live t := not_live_dropped h

theorem sound_new : ({} : Control).Sound := by
  intro t ht
  exact absurd ht.lt (Nat.not_lt_zero t)

theorem sound_renew (h : c.Sound) : c.renew.1.Sound := by
  intro t ht
  rw [(live_renew h).mp ht]
  rfl

/-- At most one token is live. -/
theorem Sound.unique (h : c.Sound) (ht : c.Live t) (hu : c.Live u) : t = u :=
  Option.some.inj ((h t ht).symm.trans (h u hu))

end PromptStudio.Control
