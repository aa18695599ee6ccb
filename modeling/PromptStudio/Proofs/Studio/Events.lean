import PromptStudio.Proofs.Chat.Event
import PromptStudio.Studio.State

/-!
# Events of both streams

A studio is given the events of both panels' streams in one sequence. Each event reaches what
belongs to its own panel and nothing else (`siteSide_foldl`, `buildSide_foldl`), and what marks a
panel as busy follows the panel's turns (`Studio.Marked`).
-/

namespace PromptStudio

namespace Panel

variable {p : Panel}

namespace Event

/-- What a frame of a site's stream was read as. -/
def site? : Event → Option (Option SiteEvent)
  | .site e => some e
  | .build _ => none

/-- What a frame of a workflow's stream was read as. -/
def build? : Event → Option (Option BuildEvent)
  | .site _ => none
  | .build e => some e

/-- The panel whose stream the event comes from. -/
def mode : Event → Mode
  | .site _ => .webCreator
  | .build _ => .workflow

/-- The event closes a turn. -/
def isTerminal : Event → Bool
  | .site (some e) => e.isTerminal
  | .build (some e) => e.isTerminal
  | _ => false

end Event

theorem isSome_active_openTurn (p : Panel) : p.openTurn.active.isSome = true := by
  rcases openTurn_cases p with ⟨_, _, _, hopen⟩ | hopen <;> rw [hopen] <;> rfl

/-- A start opens a turn, a terminal event closes it, and no other event does either. -/
theorem isSome_active_apply (p : Panel) (x : Event) :
    (p.apply x).active.isSome = (x.isStart || (!x.isTerminal && p.active.isSome)) := by
  cases x with
  | site e =>
    rcases e with _ | e
    · rfl
    cases e with
    | start _ _ => exact isSome_active_openTurn p
    | ping _ | done _ | error _ _ => rfl
    | delta _ | toolCall _ | toolOutput _ _ | progress _ _ | log _ | deployed _ _ =>
      exact congrArg Option.isSome (active_onTurn p _)
  | build e =>
    rcases e with _ | e
    · rfl
    cases e with
    | start _ => exact isSome_active_openTurn p
    | ping _ | done _ | error _ _ _ => rfl
    | phase _ _ => exact congrArg Option.isSome (active_onTurn p _)

end Panel

open Panel (Event)

namespace Studio

variable {s t : Studio} {x : Event}

/-- Applies an event of either stream. -/
def apply (s : Studio) : Event → Studio
  | .site e => (s.applySite? e).1
  | .build e => (s.applyBuild? e).1

/-- A new studio after these events. -/
def ofEvents (xs : List Event) : Studio := xs.foldl apply {}

/-- A new studio after the events of a site's stream alone. -/
def ofSite (sites : List (Option SiteEvent)) : Studio := ofEvents (sites.map .site)

/-- A new studio after the events of a workflow's stream alone. -/
def ofBuild (builds : List (Option BuildEvent)) : Studio := ofEvents (builds.map .build)

/-! ## One event -/

theorem panel_apply (s : Studio) (x : Event) (m : Mode) :
    (s.apply x).panel m = if m = x.mode then (s.panel m).apply x else s.panel m := by
  cases x with
  | site e =>
    unfold apply applySite?
    cases m <;> rcases e with _ | (_ | _ | _ | _ | _ | _ | _ | _ | _ | _) <;> rfl
  | build e =>
    unfold apply applyBuild?
    cases m <;> rcases e with _ | (_ | _ | _ | _ | _) <;> rfl

theorem isStreaming_apply (s : Studio) (x : Event) (m : Mode) :
    (s.apply x).isStreaming m =
      if m = x.mode then x.isStart || (!x.isTerminal && s.isStreaming m) else s.isStreaming m := by
  cases x with
  | site e =>
    unfold apply applySite?
    cases m <;> rcases e with _ | (_ | _ | _ | _ | _ | _ | _ | _ | _ | _) <;> rfl
  | build e =>
    unfold apply applyBuild?
    cases m <;> rcases e with _ | (_ | _ | _ | _ | _) <;> rfl

@[simp] theorem notices_apply (s : Studio) (x : Event) : (s.apply x).notices = s.notices := by
  cases x with
  | site e =>
    unfold apply applySite?
    rcases e with _ | (_ | _ | _ | _ | _ | _ | _ | _ | _ | _) <;> rfl
  | build e =>
    unfold apply applyBuild?
    rcases e with _ | (_ | _ | _ | _ | _) <;> rfl

/-! ## The two sides of a studio -/

/-- What belongs to the panel that builds sites. -/
def siteSide (s : Studio) : Panel × Preview × Trail := (s.site, s.preview, s.trail)

/-- What belongs to the panel that builds workflows. -/
def buildSide (s : Studio) : Panel × Flags := (s.workflow, s.flags)

theorem siteSide_apply_build (s : Studio) (e : Option BuildEvent) :
    (s.apply (.build e)).siteSide = s.siteSide := by
  unfold apply applyBuild?
  rcases e with _ | (_ | _ | _ | _ | _) <;> rfl

theorem buildSide_apply_site (s : Studio) (e : Option SiteEvent) :
    (s.apply (.site e)).buildSide = s.buildSide := by
  unfold apply applySite?
  rcases e with _ | (_ | _ | _ | _ | _ | _ | _ | _ | _ | _) <;> rfl

theorem siteSide_apply_site (h : s.siteSide = t.siteSide) (e : Option SiteEvent) :
    (s.apply (.site e)).siteSide = (t.apply (.site e)).siteSide := by
  cases s
  cases t
  cases h
  unfold apply applySite?
  rcases e with _ | (_ | _ | _ | _ | _ | _ | _ | _ | _ | _) <;> rfl

theorem buildSide_apply_build (h : s.buildSide = t.buildSide) (e : Option BuildEvent) :
    (s.apply (.build e)).buildSide = (t.apply (.build e)).buildSide := by
  cases s
  cases t
  cases h
  unfold apply applyBuild?
  rcases e with _ | (_ | _ | _ | _ | _) <;> rfl

/-- The events of the other stream can be left out. -/
theorem siteSide_foldl (h : s.siteSide = t.siteSide) (xs : List Event) :
    (xs.foldl apply s).siteSide =
      (((xs.filterMap Event.site?).map Event.site).foldl apply t).siteSide := by
  induction xs generalizing s t with
  | nil => exact h
  | cons x xs ih =>
    cases x with
    | site e => exact ih (siteSide_apply_site h e)
    | build e => exact ih ((siteSide_apply_build s e).trans h)

theorem buildSide_foldl (h : s.buildSide = t.buildSide) (xs : List Event) :
    (xs.foldl apply s).buildSide =
      (((xs.filterMap Event.build?).map Event.build).foldl apply t).buildSide := by
  induction xs generalizing s t with
  | nil => exact h
  | cons x xs ih =>
    cases x with
    | site e => exact ih ((buildSide_apply_site s e).trans h)
    | build e => exact ih (buildSide_apply_build h e)

/-! ## Whole sequences -/

/-- A panel is marked as busy while it has an active turn, and only then. -/
def Marked (s : Studio) : Prop := ∀ mode, s.isStreaming mode = (s.panel mode).active.isSome

theorem Marked.apply (h : s.Marked) (x : Event) : (s.apply x).Marked := by
  intro m
  rw [isStreaming_apply, panel_apply, h m]
  split
  · exact (Panel.isSome_active_apply _ x).symm
  · rfl

theorem marked_ofEvents (xs : List Event) : (ofEvents xs).Marked := by
  unfold ofEvents
  refine List.foldlRecOn xs Studio.apply (fun mode => ?_) fun s hs x _ => hs.apply x
  cases mode <;> rfl

theorem notices_ofEvents (xs : List Event) : (ofEvents xs).notices = [] := by
  unfold ofEvents
  exact List.foldlRecOn (motive := fun s : Studio => s.notices = []) xs Studio.apply rfl
    fun s hs x _ => (notices_apply s x).trans hs

/-- The streams of the two panels do not show in each other: in whatever order their events come,
what belongs to a panel is what the events of its own stream make of it. Events leave no notice, and
a panel is marked as busy exactly while it has an active turn. -/
theorem streams_apart (xs : List Event) :
    let s := ofEvents xs
    let sites := ofSite (xs.filterMap Event.site?)
    let builds := ofBuild (xs.filterMap Event.build?)
    (s.site = sites.site ∧ s.preview = sites.preview ∧ s.trail = sites.trail) ∧
      (s.workflow = builds.workflow ∧ s.flags = builds.flags) ∧
      s.notices = [] ∧
      ∀ mode, s.isStreaming mode = (s.panel mode).active.isSome := by
  intro s sites builds
  have hsites : s.siteSide = sites.siteSide := siteSide_foldl rfl xs
  have hbuilds : s.buildSide = builds.buildSide := buildSide_foldl rfl xs
  simp only [siteSide, buildSide, Prod.mk.injEq] at hsites hbuilds
  exact ⟨hsites, hbuilds, notices_ofEvents xs, marked_ofEvents xs⟩

end Studio

end PromptStudio
