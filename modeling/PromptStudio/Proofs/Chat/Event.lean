import PromptStudio.Proofs.Chat.Draft
import PromptStudio.Proofs.Chat.Panel

/-!
# What events and inputs do

A panel is given events, as the frames of its streams were read, prompts, empty replies, and the
loss of its stream (`Input`). `apply_cases` says all that an event can do: open a turn, close it,
edit its draft, or nothing. `onTurn_cases`, `settle_cases` and `openTurn_cases` say the same of the
parts: at most one entry, the active turn, is replaced, and at most one is added behind all others.
-/

namespace PromptStudio

section LastIndex

variable {α : Type} {p : α → Bool} {xs : List α} {i : Nat}

theorem lastIndex?_eq_some (h : lastIndex? p xs = some i) : ∃ x, xs[i]? = some x ∧ p x = true := by
  induction xs generalizing i with
  | nil => cases h
  | cons x xs ih =>
    rw [lastIndex?] at h
    cases hrest : lastIndex? p xs with
    | some j =>
      rw [hrest] at h
      obtain rfl := Option.some.inj h
      exact ih hrest
    | none =>
      rw [hrest] at h
      dsimp only at h
      split at h
      next hx =>
        obtain rfl := Option.some.inj h
        exact ⟨x, rfl, hx⟩
      next => cases h

end LastIndex

namespace Panel

variable {p : Panel} {i : Nat}

/-! ## Inputs -/

/-- What a frame of a stream was read as, in either family of events; `none` is a frame that is no
event. -/
inductive Event
  | site (e : Option SiteEvent)
  | build (e : Option BuildEvent)

namespace Event

/-- The event opens a turn. -/
def isStart : Event → Bool
  | .site (some (.start _ _)) => true
  | .build (some (.start _)) => true
  | _ => false

/-- What a frame of a panel's own stream is read as. -/
def ofFrame (mode : Mode) (f : Frame) : Event :=
  match mode with
  | .workflow => .build (EventFamily.ofFrame? f)
  | .webCreator => .site (EventFamily.ofFrame? f)

end Event

/-- Applies an event. -/
def apply (p : Panel) : Event → Panel
  | .site e => (p.applySite? e).1
  | .build e => (p.applyBuild? e).1

/-- What happens to a panel, a stored conversation apart: an event, a prompt, an empty reply for a
start event to take up, or the loss of the stream. -/
inductive Input
  | event (x : Event)
  | prompt (text : String)
  | loading
  | detach

/-- What an input does. -/
def feed (p : Panel) : Input → Panel
  | .event x => p.apply x
  | .prompt text => (p.addPrompt text).1
  | .loading => p.addLoading.1
  | .detach => p.detach

/-- A new panel after these inputs. -/
def ofInputs (mode : Mode) (inputs : List Input) : Panel := inputs.foldl feed { mode }

/-- A new panel after these events. -/
def ofEvents (mode : Mode) (events : List Event) : Panel := events.foldl apply { mode }

/-- A new panel after these events of a site being built. -/
def ofSites (mode : Mode) (sites : List (Option SiteEvent)) : Panel :=
  ofEvents mode (sites.map .site)

theorem ofSites_concat (mode : Mode) (sites : List (Option SiteEvent)) (e : Option SiteEvent) :
    ofSites mode (sites ++ [e]) = (ofSites mode sites).apply (.site e) := by
  unfold ofSites ofEvents
  rw [List.map_append, List.foldl_append]
  rfl

/-- What holds of a new panel and is kept by every input holds after all inputs. -/
theorem ofInputs_induction {P : Panel → Prop} {mode : Mode} (hnew : P { mode })
    (hfeed : ∀ p x, P p → P (p.feed x)) (inputs : List Input) : P (ofInputs mode inputs) := by
  unfold ofInputs
  exact List.foldlRecOn inputs feed hnew fun p hp x _ => hfeed p x hp

theorem ofEvents_eq_ofInputs (mode : Mode) (events : List Event) :
    ofEvents mode events = ofInputs mode (events.map .event) := by
  unfold ofEvents ofInputs
  rw [List.foldl_map]
  rfl

/-! ## The active turn -/

theorem activeIndex?_eq_some (h : p.activeIndex? = some i) :
    ∃ e, p.entries[i]? = some e ∧ p.active = some e.id := by
  obtain ⟨id, ha, hi⟩ := Option.bind_eq_some_iff.mp h
  obtain ⟨e, he, hid⟩ := lastIndex?_eq_some hi
  exact ⟨e, he, ha.trans (congrArg some (beq_iff_eq.mp hid).symm)⟩

/-- A change of the active turn replaces one entry, or there is no turn to change. -/
theorem onTurn_cases (p : Panel) (change : Entry → Nat → Entry × Nat) :
    p.activeIndex? = none ∧ p.onTurn change = (p, false) ∨
      ∃ i e, p.activeIndex? = some i ∧ p.entries[i]? = some e ∧ p.active = some e.id ∧
        p.onTurn change =
          ({ p with
              entries := p.entries.set i (change e p.issued).1
              issued := (change e p.issued).2 }, true) := by
  unfold onTurn
  cases hi : p.activeIndex? with
  | none => exact .inl ⟨rfl, rfl⟩
  | some i =>
    obtain ⟨e, he, ha⟩ := activeIndex?_eq_some hi
    refine .inr ⟨i, e, rfl, he, ha, ?_⟩
    dsimp only
    rw [he]

theorem mode_onTurn (p : Panel) (change : Entry → Nat → Entry × Nat) :
    (p.onTurn change).1.mode = p.mode := by
  unfold onTurn
  split
  · rfl
  · split <;> rfl

theorem active_onTurn (p : Panel) (change : Entry → Nat → Entry × Nat) :
    (p.onTurn change).1.active = p.active := by
  rcases onTurn_cases p change with ⟨_, hturn⟩ | ⟨_, _, _, _, _, hturn⟩ <;> rw [hturn]

theorem onTurn_of_active {change : Entry → Nat → Entry × Nat} (h : p.active = none) :
    p.onTurn change = (p, false) := by
  unfold onTurn
  rw [activeIndex?_of_active h]

/-- What changes the active turn changes the last entry, if that is the active turn. -/
theorem onTurn_concat {es : List Entry} {e : Entry} {change : Entry → Nat → Entry × Nat}
    (he : p.entries = es ++ [e]) (ha : p.active = some e.id) :
    (p.onTurn change).1 =
      { p with
        entries := es ++ [(change e p.issued).1]
        issued := (change e p.issued).2 } := by
  unfold onTurn
  rw [activeIndex?_concat he ha, he]
  simp

theorem settle_cases (p : Panel) :
    p.activeIndex? = none ∧ p.settle = p.entries ∨
      ∃ i e, p.activeIndex? = some i ∧ p.entries[i]? = some e ∧ p.active = some e.id ∧
        p.settle = p.entries.set i { e with kind := some .message } := by
  unfold settle
  cases hi : p.activeIndex? with
  | none => exact .inl ⟨rfl, rfl⟩
  | some i =>
    obtain ⟨e, he, ha⟩ := activeIndex?_eq_some hi
    refine .inr ⟨i, e, rfl, he, ha, ?_⟩
    dsimp only
    rw [List.modify_eq_set_getElem?, he]
    rfl

/-- A start takes up a placeholder at the end, or adds a reply. -/
theorem openTurn_cases (p : Panel) :
    (∃ e, p.settle.getLast? = some e ∧ isPlaceholder p.active e ∧
      p.openTurn = { p with entries := p.settle, active := some e.id }) ∨
      p.openTurn =
        { p with
          entries := p.settle ++ [Entry.loading (idOf p.mode (p.issued + 1)) p.mode]
          active := some (idOf p.mode (p.issued + 1))
          issued := p.issued + 1 } := by
  unfold openTurn
  dsimp only
  cases hlast : p.settle.getLast?.filter (isPlaceholder p.active) with
  | none => exact .inr rfl
  | some e =>
    obtain ⟨hlast, hplace⟩ := Option.filter_eq_some_iff.mp hlast
    exact .inl ⟨e, hlast, hplace, rfl⟩

/-! ## Events -/

/-- Changes the content of the active turn, and how it is shown. -/
def redraft (p : Panel) (draft : Draft → Draft) (kind : Option EntryKind → Option EntryKind) :
    Panel :=
  (p.onTurn fun e issued =>
    let d := draft { mode := p.mode, items := e.content, issued }
    ({ e with kind := kind e.kind, content := d.items }, d.issued)).1

/-- An event opens a turn, or it does nothing, closes the active turn or edits its draft; then the
turn is shown as before, or as progress. -/
theorem apply_cases (x : Event) :
    (x.isStart = true ∧ ∀ p : Panel, p.apply x = p.openTurn) ∨
      x.isStart = false ∧
        ((∀ p : Panel, p.apply x = p) ∨
          (∃ failure, ∀ p : Panel, p.apply x = (p.closeTurn failure).1) ∨
          ∃ draft kind, Draft.IsEdit draft ∧ (∀ k, kind k = k ∨ kind k = some .progress) ∧
            ∀ p : Panel, p.apply x = p.redraft draft kind) := by
  cases x with
  | site e =>
    cases e with
    | none => exact .inr ⟨rfl, .inl fun _ => rfl⟩
    | some e =>
      cases e with
      | start _ _ => exact .inl ⟨rfl, fun _ => rfl⟩
      | ping _ => exact .inr ⟨rfl, .inl fun _ => rfl⟩
      | done _ | error _ _ => exact .inr ⟨rfl, .inr (.inl ⟨_, fun _ => rfl⟩)⟩
      | delta _ | toolCall _ | toolOutput _ _ | progress _ _ | log _ | deployed _ _ =>
        exact .inr ⟨rfl, .inr (.inr ⟨_, id, Draft.isEdit_applySite _, fun _ => .inl rfl,
          fun _ => rfl⟩)⟩
  | build e =>
    cases e with
    | none => exact .inr ⟨rfl, .inl fun _ => rfl⟩
    | some e =>
      cases e with
      | start _ => exact .inl ⟨rfl, fun _ => rfl⟩
      | ping _ => exact .inr ⟨rfl, .inl fun _ => rfl⟩
      | done _ | error _ _ _ => exact .inr ⟨rfl, .inr (.inl ⟨_, fun _ => rfl⟩)⟩
      | phase step message =>
        exact .inr ⟨rfl, .inr (.inr ⟨_, fun _ => some .progress,
          Draft.isEdit_setReasoning (phaseText step message), fun _ => .inr rfl, fun _ => rfl⟩)⟩

theorem mode_openTurn (p : Panel) : p.openTurn.mode = p.mode := by
  unfold openTurn
  dsimp only
  split <;> rfl

@[simp] theorem mode_apply (p : Panel) (x : Event) : (p.apply x).mode = p.mode := by
  rcases apply_cases x with ⟨_, hx⟩ | ⟨_, hx | ⟨failure, hx⟩ | ⟨_, _, _, _, hx⟩⟩
  · rw [hx]
    exact mode_openTurn p
  · rw [hx]
  · rw [hx]
    unfold closeTurn
    exact mode_onTurn p _
  · rw [hx]
    exact mode_onTurn p _

theorem mode_ofEvents (mode : Mode) (events : List Event) : (ofEvents mode events).mode = mode := by
  unfold ofEvents
  exact List.foldlRecOn (motive := fun p : Panel => p.mode = mode) events apply rfl
    fun p hp x _ => (mode_apply p x).trans hp

theorem apply_of_isStart {x : Event} (hx : x.isStart = true) : p.apply x = p.openTurn := by
  rcases apply_cases x with ⟨_, h⟩ | ⟨hx', _⟩
  · exact h p
  · rw [hx] at hx'
    cases hx'

/-- Without an active turn only a start has an effect. -/
theorem apply_of_active {x : Event} (ha : p.active = none) (hx : x.isStart = false) :
    p.apply x = p := by
  rcases apply_cases x with ⟨hx', _⟩ | ⟨_, hx | ⟨failure, hx⟩ | ⟨_, kind, _, _, hx⟩⟩
  · rw [hx] at hx'
    cases hx'
  · exact hx p
  · rw [hx]
    unfold closeTurn
    rw [onTurn_of_active ha]
    exact detach_of_active ha
  · rw [hx]
    exact congrArg Prod.fst (onTurn_of_active ha)

end Panel

end PromptStudio
