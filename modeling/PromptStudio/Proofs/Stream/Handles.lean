import PromptStudio.Proofs.Stream.Control

/-!
# Handles on a control

A panel's control is reached through handles, and a handle and its clones point to the same control
(`Handles`). Tokens are also cancelled without a handle, by whoever holds them. `Control.Orderly` is
what all this keeps: the token held is the one handed out last, and no other is live. A control may
hold a cancelled token, and it lets go of its token when it aborts, so what is active is told by the
last token alone (`Orderly.isActive_iff`). Every control is orderly in every run
(`wellFormed_run`).
-/

namespace PromptStudio

namespace Control

variable {c : Control} {t : Nat}

theorem isCancelled_of_not_live (ht : t < c.cancelled.length) (h : ¬ c.Live t) :
    c.isCancelled t = true := by
  cases hc : c.isCancelled t with
  | true => rfl
  | false => exact absurd (live_of_not_cancelled ht hc) h

/-- No token is live but the one held, which is the one handed out last. -/
structure Orderly (c : Control) : Prop where
  sound : c.Sound
  latest : ∀ t : Nat, c.current = some t → t + 1 = c.cancelled.length

namespace Orderly

theorem new : ({} : Control).Orderly where
  sound := sound_new
  latest _ h := by cases h

theorem renew (h : c.Orderly) : c.renew.1.Orderly where
  sound := sound_renew h.sound
  latest t ht := by
    obtain rfl : c.cancelled.length = t := Option.some.inj ht
    rw [length_renew]

theorem abort (h : c.Orderly) : c.abort.1.Orderly where
  sound _ ht := absurd ht (not_live_abort h.sound)
  latest _ ht := by cases ht

/-- A token cancelled behind the control's back may be the one it holds. -/
theorem cancel (h : c.Orderly) (t : Token) : (c.cancel t).Orderly where
  sound u hu := h.sound u (live_cancel.mp hu).1
  latest u hu := by
    rw [length_cancel]
    exact h.latest u hu

theorem isCancelled_of_lt (h : c.Orderly) (ht : t + 1 < c.cancelled.length) :
    c.isCancelled t = true := by
  refine isCancelled_of_not_live (Nat.lt_of_succ_lt ht) fun hlive => ?_
  have hlast := h.latest t (h.sound t hlive)
  omega

theorem isActive_iff (h : c.Orderly) :
    c.isActive = true ↔ ∃ t : Nat, t + 1 = c.cancelled.length ∧ c.isCancelled t = false := by
  unfold isActive
  constructor
  · intro hactive
    obtain ⟨t, ht, hlive⟩ := (Option.any_eq_true _ _).mp hactive
    exact ⟨t, h.latest t ht, by simpa using hlive⟩
  · rintro ⟨t, ht, hlive⟩
    have hlt : t < c.cancelled.length := by omega
    have hheld := h.sound t (live_of_not_cancelled hlt hlive)
    rw [hheld, Option.any_some, hlive]
    rfl

end Orderly

end Control

/-! ## Handles -/

/-- Controls, and the number of the control that each handle points to. -/
structure Handles where
  controls : List Control := []
  targets : List Nat := []

/-- What is done with controls and their tokens. -/
inductive Use
  /-- A control is made, and a handle on it. -/
  | make
  /-- A handle is cloned. -/
  | clone (h : Nat)
  /-- An operation begins. -/
  | renew (h : Nat)
  /-- The running operation is stopped. -/
  | abort (h : Nat)
  /-- A token of the `n`th control is cancelled by whoever holds it. -/
  | cancel (n : Nat) (t : Token)

namespace Handles

variable {s : Handles} {c : Control} {h n : Nat}

/-- The control that a handle points to. -/
def control? (s : Handles) (h : Nat) : Option Control := s.targets[h]?.bind (s.controls[·]?)

/-- Changes the control that a handle points to. -/
def onControl (s : Handles) (h : Nat) (f : Control → Control) : Handles :=
  match s.targets[h]? with
  | some n => { s with controls := s.controls.modify n f }
  | none => s

/-- Hands out a token through a handle. -/
def renew (s : Handles) (h : Nat) : Handles × Option Token :=
  (s.onControl h (·.renew.1), (s.control? h).map (·.renew.2))

/-- Aborts through a handle. -/
def abort (s : Handles) (h : Nat) : Handles × Bool :=
  (s.onControl h (·.abort.1), (s.control? h).any (·.abort.2))

/-- Tells through a handle whether a token is live. -/
def isActive (s : Handles) (h : Nat) : Bool := (s.control? h).any (·.isActive)

/-- What a use does. -/
def step (s : Handles) : Use → Handles
  | .make => { controls := s.controls ++ [{}], targets := s.targets ++ [s.controls.length] }
  | .clone h => { s with targets := s.targets ++ s.targets[h]?.toList }
  | .renew h => (s.renew h).1
  | .abort h => (s.abort h).1
  | .cancel n t => { s with controls := s.controls.modify n (·.cancel t) }

/-- All that these uses do. -/
def run (uses : List Use) : Handles := uses.foldl step {}

/-- Every handle points to a control, and every control is orderly. -/
structure WellFormed (s : Handles) : Prop where
  targets_lt : ∀ n ∈ s.targets, n < s.controls.length
  orderly : ∀ c ∈ s.controls, c.Orderly

theorem control?_eq (hh : s.targets[h]? = some n) : s.control? h = s.controls[n]? := by
  unfold control?
  rw [hh, Option.bind_some]

theorem controls_onControl (hh : s.targets[h]? = some n) (hc : s.controls[n]? = some c)
    (f : Control → Control) : (s.onControl h f).controls[n]? = some (f c) := by
  unfold onControl
  rw [hh]
  simp [hc]

namespace WellFormed

theorem new : ({} : Handles).WellFormed where
  targets_lt _ hn := absurd hn List.not_mem_nil
  orderly _ hc := absurd hc List.not_mem_nil

theorem modify (hs : s.WellFormed) {f : Control → Control}
    (hf : ∀ c : Control, c.Orderly → (f c).Orderly) (n : Nat) :
    ({ s with controls := s.controls.modify n f } : Handles).WellFormed where
  targets_lt m hm := by
    rw [List.length_modify]
    exact hs.targets_lt m hm
  orderly c hc := by
    obtain ⟨i, hi⟩ := List.mem_iff_getElem?.mp hc
    rw [List.getElem?_modify] at hi
    obtain ⟨d, hd, rfl⟩ := Option.map_eq_some_iff.mp hi
    have hold := hs.orderly d (List.mem_of_getElem? hd)
    split
    · exact hf d hold
    · exact hold

theorem onControl (hs : s.WellFormed) {f : Control → Control}
    (hf : ∀ c : Control, c.Orderly → (f c).Orderly) (h : Nat) : (s.onControl h f).WellFormed := by
  unfold Handles.onControl
  split
  · exact hs.modify hf _
  · exact hs

theorem step (hs : s.WellFormed) (x : Use) : (s.step x).WellFormed := by
  cases x with
  | make =>
    refine ⟨fun n hn => ?_, List.forall_mem_append.mpr
      ⟨hs.orderly, List.forall_mem_singleton.mpr .new⟩⟩
    show n < (s.controls ++ [({} : Control)]).length
    rw [List.length_append, List.length_singleton]
    rcases List.mem_append.mp hn with hn | hn
    · exact Nat.lt_succ_of_lt (hs.targets_lt n hn)
    · exact List.mem_singleton.mp hn ▸ Nat.lt_succ_self _
  | clone h =>
    -- the clone points where the handle does
    refine ⟨fun n hn => ?_, hs.orderly⟩
    rcases List.mem_append.mp hn with hn | hn
    · exact hs.targets_lt n hn
    · exact hs.targets_lt n (List.mem_of_getElem? (Option.mem_toList.mp hn))
  | renew h => exact hs.onControl (fun _ hc => hc.renew) h
  | abort h => exact hs.onControl (fun _ hc => hc.abort) h
  | cancel n t => exact hs.modify (fun _ hc => hc.cancel t) n

end WellFormed

theorem wellFormed_run (uses : List Use) : (run uses).WellFormed := by
  unfold run
  exact List.foldlRecOn uses step .new fun _ hs x _ => hs.step x

/-- A panel has at most one live token. However controls have been used, through any handle or by
cancelling tokens, a handle points to a control of which all tokens but the one handed out last are
cancelled. What is active is told by the last token alone; an abort tells what was active just
before, and leaves every token cancelled; and a new token is the only one that is not. -/
theorem one_live_token (uses : List Use) (h n : Nat) (hh : (run uses).targets[h]? = some n) :
    let s := run uses
    ∃ c, s.controls[n]? = some c ∧
      (∀ t : Nat, t + 1 < c.cancelled.length → c.isCancelled t = true) ∧
      (s.isActive h = true ↔ ∃ t : Nat, t + 1 = c.cancelled.length ∧ c.isCancelled t = false) ∧
      (s.abort h).2 = s.isActive h ∧
      (∃ d, (s.abort h).1.controls[n]? = some d ∧ d.cancelled.length = c.cancelled.length ∧
        ∀ t < d.cancelled.length, d.isCancelled t = true) ∧
      ∃ d, (s.renew h).1.controls[n]? = some d ∧ (s.renew h).2 = some c.cancelled.length ∧
        d.cancelled.length = c.cancelled.length + 1 ∧
        ∀ t < d.cancelled.length, d.isCancelled t = false ↔ t = c.cancelled.length := by
  intro s
  have hs : s.WellFormed := wellFormed_run uses
  have hlt := hs.targets_lt n (List.mem_of_getElem? hh)
  obtain ⟨c, hc⟩ : ∃ c, s.controls[n]? = some c := ⟨_, List.getElem?_eq_getElem hlt⟩
  have horderly : c.Orderly := hs.orderly c (List.mem_of_getElem? hc)
  have hcontrol : s.control? h = some c := (control?_eq hh).trans hc
  have hactive : s.isActive h = c.isActive := by
    unfold isActive
    rw [hcontrol, Option.any_some]
  refine ⟨c, hc, fun t ht => horderly.isCancelled_of_lt ht, ?_, ?_,
    ⟨c.abort.1, controls_onControl hh hc _, Control.length_abort c, fun t ht => ?_⟩,
    ⟨c.renew.1, controls_onControl hh hc _, ?_, Control.length_renew c, fun t ht => ?_⟩⟩
  · rw [hactive]
    exact horderly.isActive_iff
  · rw [hactive]
    unfold abort
    rw [hcontrol, Option.any_some]
    rfl
  · exact Control.isCancelled_of_not_live ht (Control.not_live_abort horderly.sound)
  · unfold renew
    rw [hcontrol]
    rfl
  · rw [← Control.live_renew horderly.sound]
    exact ⟨Control.live_of_not_cancelled ht, Control.Live.not_cancelled⟩

/-- The first token is cancelled behind the control's back, and a clone hands out the second. -/
theorem one_live_token_clone :
    let s := run [.make, .clone 0, .renew 0, .cancel 0 0, .renew 1]
    s.targets[1]? = some 0 ∧
      s.controls[0]? = some { cancelled := [true, false], current := some 1 } ∧
      s.isActive 1 = true ∧ (s.abort 1).2 = true := by
  intro s
  have hh : s.targets[1]? = some 0 := rfl
  obtain ⟨c, hc, _, hactive, habort, _⟩ := one_live_token _ 1 0 hh
  have hlive : s.isActive 1 = true := by
    obtain rfl := Option.some.inj hc
    exact hactive.mpr ⟨1, rfl, rfl⟩
  exact ⟨hh, rfl, hlive, habort.trans hlive⟩

end Handles

end PromptStudio
