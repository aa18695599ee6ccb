import PromptStudio.Proofs.Chat.WellFormed

/-!
# What becomes of a transcript

A transcript is only added to, save for the active turn: an input leaves every entry in its place
and changes none but the active turn (`Allows.changes_feed`), which it may give further items and a
longer, or newer, last item (`grows_feed`). In a well-formed transcript the active turn is neither a
prompt nor a finished reply, so these never change (`transcript_grows`).
-/

namespace PromptStudio

/-- What may become of the active turn: it may be finished and get further items. -/
structure Entry.Grows (e e' : Entry) : Prop where
  id_eq : e'.id = e.id
  role_eq : e'.role = e.role
  mode_eq : e'.mode = e.mode
  parent_eq : e'.parent = e.parent
  prefix_id : e.content.map Item.id <+: e'.content.map Item.id
  allGrow : Item.AllGrow e.content e'.content

theorem Entry.Grows.refl (e : Entry) : e.Grows e :=
  ⟨rfl, rfl, rfl, rfl, List.prefix_refl _, .refl _⟩

theorem Entry.grows_finished (e : Entry) (error : Option String) :
    e.Grows { e with kind := some .message, error } :=
  ⟨rfl, rfl, rfl, rfl, List.prefix_refl _, .refl _⟩

namespace Panel

variable {p q : Panel} {e e' : Entry} {i : Nat} {change : Entry → Nat → Entry × Nat}

/-! ## What an input may change -/

/-- Every entry is still in its place and has become what `R` allows, and none but the active turn
has changed. -/
def Changes (R : Entry → Entry → Prop) (p q : Panel) : Prop :=
  ∀ (i : Nat) (e : Entry), p.entries[i]? = some e →
    ∃ e', q.entries[i]? = some e' ∧ R e e' ∧ (p.activeIndex? ≠ some i → e' = e)

/-- The relation allows all that an input does to the active turn: it is finished, or its draft is
edited. -/
structure Allows (R : Entry → Entry → Prop) : Prop where
  refl : ∀ e, R e e
  finish : ∀ (e : Entry) (error : Option String), R e { e with kind := some .message, error }
  redraft : ∀ (e : Entry) (mode : Mode) (n : Nat) (draft : Draft → Draft)
    (kind : Option EntryKind → Option EntryKind), Draft.IsEdit draft →
    (∀ k, kind k = k ∨ kind k = some .progress) →
    R e { e with kind := kind e.kind, content := (draft ⟨mode, e.content, n⟩).items }

namespace Allows

variable {R : Entry → Entry → Prop}

theorem changes_of_prefix (h : Allows R) (hq : p.entries <+: q.entries) : Changes R p q := by
  intro i e he
  obtain ⟨es, hes⟩ := hq
  obtain ⟨hi, _⟩ := List.getElem?_eq_some_iff.mp he
  refine ⟨e, ?_, h.refl e, fun _ => rfl⟩
  rw [← hes, List.getElem?_append_left hi, he]

/-- The active turn is replaced, and entries may be added behind all others. -/
theorem changes_of_set (h : Allows R) (hi : p.activeIndex? = some i) (he : p.entries[i]? = some e)
    (hR : R e e') (hq : p.entries.set i e' <+: q.entries) : Changes R p q := by
  intro j x hx
  obtain ⟨es, hes⟩ := hq
  obtain ⟨hj, _⟩ := List.getElem?_eq_some_iff.mp hx
  rw [← hes, List.getElem?_append_left (by rwa [List.length_set])]
  by_cases hij : i = j
  · subst hij
    obtain rfl := Option.some.inj (he.symm.trans hx)
    exact ⟨e', List.getElem?_set_self hj, hR, fun hne => absurd hi hne⟩
  · exact ⟨x, by rw [List.getElem?_set_ne hij, hx], h.refl x, fun _ => rfl⟩

theorem changes_onTurn (h : Allows R) (hR : ∀ e : Entry, R e (change e p.issued).1)
    (hq : q.entries = (p.onTurn change).1.entries) : Changes R p q := by
  rcases onTurn_cases p change with ⟨_, hturn⟩ | ⟨i, e, hi, he, _, hturn⟩
  · rw [hturn] at hq
    exact h.changes_of_prefix (hq ▸ List.prefix_refl _)
  · rw [hturn] at hq
    exact h.changes_of_set hi he (hR e) (hq ▸ List.prefix_refl _)

theorem changes_openTurn (h : Allows R) (p : Panel) : Changes R p p.openTurn := by
  have hsettle : p.settle <+: p.openTurn.entries := by
    rcases openTurn_cases p with ⟨_, _, _, hopen⟩ | hopen
    · exact hopen ▸ List.prefix_refl p.settle
    · exact hopen ▸ List.prefix_append p.settle _
  rcases settle_cases p with ⟨_, hsame⟩ | ⟨i, e, hi, he, _, hset⟩
  · rw [hsame] at hsettle
    exact h.changes_of_prefix hsettle
  · rw [hset] at hsettle
    exact h.changes_of_set hi he (h.finish e e.error) hsettle

theorem changes_feed (h : Allows R) (p : Panel) (x : Input) : Changes R p (p.feed x) := by
  cases x with
  | event x =>
    show Changes R p (p.apply x)
    rcases apply_cases x with ⟨_, hx⟩ | ⟨_, hx | ⟨failure, hx⟩ | ⟨draft, kind, hdraft, hkind, hx⟩⟩
    · rw [hx]
      exact h.changes_openTurn p
    · rw [hx]
      exact h.changes_of_prefix (List.prefix_refl _)
    · rw [hx]
      unfold closeTurn
      exact h.changes_onTurn (fun e => h.finish e (failure.or e.error)) rfl
    · rw [hx]
      exact h.changes_onTurn (fun e => h.redraft e p.mode p.issued draft kind hdraft hkind) rfl
  | prompt _ | loading => exact h.changes_of_prefix (List.prefix_append _ _)
  | detach => exact h.changes_of_prefix (List.prefix_refl _)

end Allows

/-! ## Growth -/

theorem allows_grows : Allows Entry.Grows where
  refl := .refl
  finish := Entry.grows_finished
  redraft e mode n draft kind hdraft _ := by
    have hgrow := (hdraft.advances ⟨mode, e.content, n⟩).grow
    exact ⟨rfl, rfl, rfl, rfl, hgrow.prefix_id, hgrow⟩

/-- Every entry is still in its place, and only the active turn may have grown. -/
def Grows (p q : Panel) : Prop :=
  ∀ (i : Nat) (e : Entry), p.entries[i]? = some e →
    ∃ e', q.entries[i]? = some e' ∧ e.Grows e' ∧ (p.active ≠ some e.id → e' = e)

/-- An input changes no entry but the active turn. -/
theorem grows_feed (p : Panel) (x : Input) : p.Grows (p.feed x) := by
  intro i e he
  obtain ⟨e', he', hgrows, hsame⟩ := allows_grows.changes_feed p x i e he
  refine ⟨e', he', hgrows, fun ha => hsame fun hi => ?_⟩
  obtain ⟨e₀, he₀, ha₀⟩ := activeIndex?_eq_some hi
  obtain rfl := Option.some.inj (he.symm.trans he₀)
  exact ha ha₀

theorem Grows.prefix_id (h : p.Grows q) : p.entries.map Entry.id <+: q.entries.map Entry.id := by
  refine map_prefix_of_getElem? fun i e he => ?_
  obtain ⟨e', he', hgrows, _⟩ := h i e he
  exact ⟨e', he', hgrows.id_eq⟩

/-- A prompt is not the active turn, nor is a finished reply. -/
theorem WellFormed.not_active (h : p.WellFormed) (he : e ∈ p.entries)
    (hfixed : e.role = .user ∨ e.kind = some .message) : p.active ≠ some e.id := by
  intro ha
  obtain ⟨hrole, hkind, _⟩ := h.isOpen e he ha
  rcases hfixed with huser | hmessage
  · rw [hrole] at huser
    cases huser
  · rw [hmessage] at hkind
    rcases hkind with hkind | hkind <;> cases hkind

/-- Transcripts are added to at the end. No input changes a prompt, a finished reply, or any entry
but the active turn; the active turn keeps its items and only gets further with them; and without an
active turn nothing but a start has an effect. -/
theorem transcript_grows (mode : Mode) (inputs : List Input) (x : Input) :
    let p := ofInputs mode inputs
    let q := p.feed x
    p.entries.map Entry.id <+: q.entries.map Entry.id ∧
      (∀ (i : Nat) (e : Entry), p.entries[i]? = some e →
        (∃ e', q.entries[i]? = some e' ∧ e.Grows e') ∧
          (e.role = .user ∨ e.kind = some .message ∨ p.active ≠ some e.id →
            q.entries[i]? = some e)) ∧
      ∀ y : Event, y.isStart = false → p.active = none → p.apply y = p := by
  intro p q
  have hgrows : p.Grows q := grows_feed p x
  refine ⟨hgrows.prefix_id, fun i e he => ?_, fun y hy ha => apply_of_active ha hy⟩
  obtain ⟨e', he', hentry, hsame⟩ := hgrows i e he
  refine ⟨⟨e', he', hentry⟩, fun hfixed => ?_⟩
  have hother : p.active ≠ some e.id := by
    rcases hfixed with huser | hmessage | hother
    · exact (wellFormed_ofInputs mode inputs).not_active (List.mem_of_getElem? he) (.inl huser)
    · exact (wellFormed_ofInputs mode inputs).not_active (List.mem_of_getElem? he) (.inr hmessage)
    · exact hother
  rw [he', hsame hother]

end Panel

end PromptStudio
