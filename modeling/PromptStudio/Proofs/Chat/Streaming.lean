import PromptStudio.Proofs.Chat.Event

/-!
# A turn while it is streamed

A start opens a turn at the end of the transcript, and from then on events in the middle of the turn
change nothing but its draft: `Drafts` ties a panel to the draft of its active turn
(`drafts_openTurn`, `Drafts.stream`). So what holds of a draft that starts without items holds of
every turn.
-/

namespace PromptStudio

/-- The event neither opens a turn nor closes one. -/
def SiteEvent.isMidTurn : SiteEvent → Bool
  | .start .. | .done .. | .error .. => false
  | _ => true

namespace Draft

variable {d : Draft}

/-- Applies events in the middle of a turn, one after the other. -/
def stream (d : Draft) (events : List SiteEvent) : Draft := events.foldl applySite d

theorem stream_append (d : Draft) (before after : List SiteEvent) :
    d.stream (before ++ after) = (d.stream before).stream after :=
  List.foldl_append

theorem stream_concat (d : Draft) (events : List SiteEvent) (e : SiteEvent) :
    d.stream (events ++ [e]) = (d.stream events).applySite e :=
  stream_append d events [e]

theorem isEdit_stream (events : List SiteEvent) : IsEdit (·.stream events) :=
  isEdit_foldl isEdit_applySite events

end Draft

namespace Panel

variable {p q : Panel} {es : List Entry} {e : Entry} {d : Draft}

/-- Applies events of a site being built, one after the other. -/
def stream (p : Panel) (events : List SiteEvent) : Panel :=
  events.foldl (fun p e => (p.applySite e).1) p

/-- The entry that events are applied to. -/
def activeTurn? (p : Panel) : Option Entry := p.activeIndex?.bind (p.entries[·]?)

/-- The draft of a turn that a start opens. -/
def openedDraft (p : Panel) : Draft := { mode := p.mode, items := [], issued := p.openTurn.issued }

/-- Behind the entries `es` stands the active turn, the entry `e` with the items of the draft. -/
structure Drafts (p : Panel) (es : List Entry) (e : Entry) (d : Draft) : Prop where
  mode_eq : p.mode = d.mode
  entries : p.entries = es ++ [{ e with content := d.items }]
  active : p.active = some e.id
  issued : p.issued = d.issued

namespace Drafts

theorem eq (hp : p.Drafts es e d) (hq : q.Drafts es e d) : p = q := by
  obtain ⟨pmode, pentries, pactive, pissued⟩ := p
  obtain ⟨qmode, qentries, qactive, qissued⟩ := q
  obtain ⟨rfl, rfl, rfl, rfl⟩ := hp
  obtain ⟨rfl, rfl, rfl, rfl⟩ := hq
  rfl

theorem activeIndex?_eq (h : p.Drafts es e d) : p.activeIndex? = some es.length :=
  activeIndex?_concat h.entries h.active

theorem getElem?_eq (h : p.Drafts es e d) :
    p.entries[es.length]? = some { e with content := d.items } := by
  rw [h.entries, List.getElem?_concat_length]

theorem activeTurn?_eq (h : p.Drafts es e d) :
    p.activeTurn? = some { e with content := d.items } := by
  unfold activeTurn?
  rw [h.activeIndex?_eq]
  exact h.getElem?_eq

theorem onDraft (h : p.Drafts es e d) {f : Draft → Draft} (hf : Draft.IsEdit f) :
    (p.onDraft f).1.Drafts es e (f d) := by
  have hd : (⟨p.mode, d.items, p.issued⟩ : Draft) = d := by rw [h.mode_eq, h.issued]
  unfold Panel.onDraft
  rw [onTurn_concat h.entries h.active]
  dsimp only
  rw [hd]
  exact ⟨h.mode_eq.trans (hf.advances d).mode_eq.symm, rfl, h.active, rfl⟩

/-- An event in the middle of a turn edits the draft. -/
theorem applySite (h : p.Drafts es e d) {x : SiteEvent} (hx : x.isMidTurn = true) :
    (p.applySite x).1.Drafts es e (d.applySite x) := by
  cases x with
  | start _ _ | done _ | error _ _ => cases hx
  | ping _ => exact h
  | delta _ | toolCall _ | toolOutput _ _ | progress _ _ | log _ | deployed _ _ =>
    exact h.onDraft (Draft.isEdit_applySite _)

theorem stream (h : p.Drafts es e d) {events : List SiteEvent}
    (hevents : ∀ x ∈ events, x.isMidTurn = true) :
    (p.stream events).Drafts es e (d.stream events) := by
  induction events generalizing p d with
  | nil => exact h
  | cons x events ih =>
    obtain ⟨hx, hrest⟩ := List.forall_mem_cons.mp hevents
    exact ih (h.applySite hx) hrest

/-- A terminal event leaves the content of the turn as it is. -/
theorem content_applySite (h : p.Drafts es e d) {x : SiteEvent} (hx : x.isTerminal = true) :
    ((p.applySite x).1.entries[es.length]?).map Entry.content = some d.items := by
  have hclose : ∀ failure, (p.closeTurn failure).1.entries[es.length]?.map Entry.content =
      some d.items := by
    intro failure
    unfold Panel.closeTurn
    dsimp only
    rw [onTurn_concat h.entries h.active]
    dsimp only
    rw [List.getElem?_concat_length]
    rfl
  cases x with
  | done _ | error _ _ => exact hclose _
  | _ => cases hx

end Drafts

/-- A start opens an empty turn at the end of the transcript. -/
theorem drafts_openTurn (p : Panel) : ∃ es e, p.openTurn.Drafts es e p.openedDraft := by
  rcases openTurn_cases p with ⟨e, hlast, hplace, hopen⟩ | hopen
  · obtain ⟨es, hes⟩ := List.getLast?_eq_some_iff.mp hlast
    have hempty : e.content = [] := by
      simp only [isPlaceholder, Bool.and_eq_true, List.isEmpty_iff] at hplace
      exact hplace.1.2
    refine ⟨es, e, ?_, ?_, ?_, rfl⟩
    · exact mode_openTurn p
    · rw [hopen]
      show p.settle = es ++ [{ e with content := [] }]
      rw [hes, ← hempty]
    · rw [hopen]
  · refine ⟨p.settle, Entry.loading (idOf p.mode (p.issued + 1)) p.mode, ?_, ?_, ?_, rfl⟩
    · exact mode_openTurn p
    · rw [hopen]
      rfl
    · rw [hopen]
      rfl

end Panel

end PromptStudio
