import Mathlib.Data.List.Forall2
import PromptStudio.Proofs.Chat.Apart
import PromptStudio.Proofs.Chat.Joined

/-!
# Panels that hold related items

Two panels are given events, and the items of their entries are related entry by entry
(`Panel.Alongside`). A relation that is kept when both sides take up the same item or change the
same tool use (`Item.Kept`) is kept by every event that is no log line (`Alongside.apply`). Of the
two relations here, one leaves log lines out on one side (`Item.ShownAs`), and the other does not
tell what they say or how many come in a row (`Item.SameShown`).
-/

namespace PromptStudio

namespace Item

variable {is js : List Item}

/-! ## Relations that events keep -/

/-- The relation is kept when both sides take up the same item, or change the same tool use. -/
structure Kept (R : List Item → List Item → Prop) : Prop where
  takeUp : ∀ (is js : List Item) (i : Item) (a b : String), i.isVisible = true → R is js →
    R (takeUp is (i.withId a)) (takeUp js (i.withId b))
  onUse : ∀ (is js : List Item) (callId : String) (change : ToolUse → ToolUse), R is js →
    R (onUse callId change is) (onUse callId change js)
  known : ∀ (is js : List Item) (callId : String), R is js →
    is.any (Draft.isUseOf callId) = js.any (Draft.isUseOf callId)

/-- But for their ids, the items `js` are what `is` shows as if it had no log lines. -/
def ShownAs (is js : List Item) : Prop := (shown is).map unnamed = js.map unnamed

theorem kept_shownAs : Kept ShownAs where
  takeUp is js i a b hi h := by
    unfold ShownAs
    rw [shown_takeUp ((isVisible_withId i a).trans hi)]
    exact map_unnamed_takeUp h i a b
  onUse is js callId change h := by
    unfold ShownAs shown
    rw [visible_onUse, joined_onUse]
    exact map_unnamed_onUse h callId change
  known is js callId h := by
    rw [← any_visible, ← any_joined, ← any_map_unnamed, ← any_map_unnamed callId js, ← h]
    rfl

/-- The items show what `is` shows as if it had no log lines. -/
theorem ShownAs.visible (h : ShownAs is js) :
    (js.filter isVisible).map unnamed = (shown is).map unnamed := by
  rw [map_unnamed_visible, ← h, ← map_unnamed_visible, visible_shown]

/-- The same items are shown, but for their ids, and both sides end in a log line or neither
does. -/
def SameShown (is js : List Item) : Prop :=
  (is.filter isVisible).map unnamed = (js.filter isVisible).map unnamed ∧
    endsShown is = endsShown js

theorem kept_sameShown : Kept SameShown where
  takeUp is js i a b hi h := by
    have ha : (i.withId a).isVisible = true := (isVisible_withId i a).trans hi
    have hb : (i.withId b).isVisible = true := (isVisible_withId i b).trans hi
    refine ⟨?_, (endsShown_takeUp ha is).trans (endsShown_takeUp hb js).symm⟩
    rw [visible_takeUp ha, visible_takeUp hb, h.2]
    split
    · exact map_unnamed_takeUp h.1 i a b
    · rw [List.map_append, List.map_append, h.1, List.map_singleton, List.map_singleton,
        unnamed_withId, unnamed_withId]
  onUse is js callId change h := by
    refine ⟨?_, ?_⟩
    · rw [visible_onUse, visible_onUse]
      exact map_unnamed_onUse h.1 callId change
    · rw [endsShown_onUse, endsShown_onUse, h.2]
  known is js callId h := by
    rw [← any_visible, ← any_map_unnamed, h.1, any_map_unnamed, any_visible]

/-- What a log line says does not show. -/
theorem SameShown.log (h : SameShown is js) (a b line line' : String) :
    SameShown (is ++ [.log a line]) (js ++ [.log b line']) := by
  refine ⟨?_, ?_⟩
  · rw [visible_log, visible_log, h.1]
  · rw [endsShown_concat, endsShown_concat]
    rfl

/-- Behind a log line another one does not show. -/
theorem SameShown.log_log (h : SameShown is js) (a a' b line line' : String) :
    SameShown (is ++ [.log a line] ++ [.log a' line']) (js ++ [.log b line]) := by
  refine ⟨?_, ?_⟩
  · rw [visible_log, visible_log, visible_log, h.1]
  · rw [endsShown_concat, endsShown_concat]
    rfl

end Item

/-! ## Events on both sides -/

/-- The event is a log line. -/
def SiteEvent.isLog : SiteEvent → Bool
  | .log _ => true
  | _ => false

/-- The events without the log lines. -/
def SiteEvent.withoutLogs (sites : List (Option SiteEvent)) : List (Option SiteEvent) :=
  sites.filter fun e => !e.any isLog

theorem SiteEvent.exists_log {e : Option SiteEvent} (h : e.any isLog = true) :
    ∃ line, e = some (.log line) := by
  rcases e with _ | (_ | _ | _ | _ | _ | line | _ | _ | _ | _)
  case some.log => exact ⟨line, rfl⟩
  all_goals cases h

theorem stagePercent?_ne_zero (stage : String) : stagePercent? stage ≠ some 0 := by
  unfold stagePercent?
  split <;> simp

namespace Draft

variable {d d' : Draft} {merge : Item → Option Item} {make : String → Item}

theorem items_amend (hjoin : ∀ (i : Item) id, i.join? (make id) = merge i) :
    (d.amend merge make).items = Item.takeUp d.items (make (idOf d.mode (d.issued + 1))) := by
  unfold amend Item.takeUp
  rw [funext fun i => hjoin i _]
  cases d.items.getLast?.bind merge <;> rfl

theorem items_appendText (d : Draft) (words : String) :
    (d.appendText words).items =
      Item.takeUp d.items (.text (idOf d.mode (d.issued + 1)) words) := by
  rw [appendText_eq_amend]
  exact items_amend fun i _ => by cases i <;> rfl

theorem items_setProgress (d : Draft) {percent : Option Nat} (h : percent ≠ some 0) :
    (d.setProgress percent).items =
      Item.takeUp d.items (.progress (idOf d.mode (d.issued + 1)) (percent.getD 0)) := by
  rw [setProgress_eq_amend]
  refine items_amend fun i _ => ?_
  cases i with
  | progress id before =>
    cases percent with
    | none => rfl
    | some v =>
      have hv : v ≠ 0 := fun hv => h (congrArg some hv)
      simp [Item.join?, Item.setPercent?, hv]
  | _ => rfl

theorem items_add (hjoin : ∀ (i : Item) id, i.join? (make id) = none) :
    (d.add make).items = Item.takeUp d.items (make (idOf d.mode (d.issued + 1))) :=
  (Item.takeUp_of_forall (fun i => hjoin i _) d.items).symm

end Draft

namespace Item.Kept

variable {R : List Item → List Item → Prop} {d d' : Draft}

theorem recordCall (h : Kept R) (hR : R d.items d'.items) (c : ToolCall) :
    R (d.recordCall c).items (d'.recordCall c).items := by
  unfold Draft.recordCall
  rw [h.known _ _ c.callId hR]
  split
  · exact h.onUse _ _ c.callId _ hR
  · have hjoin : ∀ (i : Item) id, i.join? (.toolUse id ⟨c.callId, c.tool, c.args, none⟩) = none :=
      fun i _ => by cases i <;> rfl
    rw [Draft.items_add hjoin, Draft.items_add hjoin]
    exact h.takeUp _ _ (.toolUse "" _) _ _ rfl hR

/-- An event that is no log line does the same on both sides. -/
theorem applySite (h : Kept R) (hR : R d.items d'.items) {e : SiteEvent} (he : e.isLog = false) :
    R (d.applySite e).items (d'.applySite e).items := by
  cases e with
  | delta words =>
    show R (d.appendText words).items (d'.appendText words).items
    rw [Draft.items_appendText, Draft.items_appendText]
    exact h.takeUp _ _ (.text "" words) _ _ rfl hR
  | toolCall calls =>
    show R (calls.foldl Draft.recordCall d).items (calls.foldl Draft.recordCall d').items
    clear he
    induction calls generalizing d d' with
    | nil => exact hR
    | cons c calls ih => exact ih (h.recordCall hR c)
  | toolOutput callId status => exact h.onUse _ _ callId _ hR
  | progress stage _ =>
    show R (d.setProgress (stagePercent? stage)).items (d'.setProgress (stagePercent? stage)).items
    rw [Draft.items_setProgress _ (stagePercent?_ne_zero stage),
      Draft.items_setProgress _ (stagePercent?_ne_zero stage)]
    exact h.takeUp _ _ (.progress "" _) _ _ rfl hR
  | log _ => cases he
  | deployed url message =>
    have hjoin : ∀ (i : Item) (id : String), i.join? (.preview id ⟨url, message⟩) = none :=
      fun i _ => by cases i <;> rfl
    show R (d.add (.preview · ⟨url, message⟩)).items (d'.add (.preview · ⟨url, message⟩)).items
    rw [Draft.items_add hjoin, Draft.items_add hjoin]
    exact h.takeUp _ _ (.preview "" ⟨url, message⟩) _ _ rfl hR
  | start _ _ | ping _ | done _ | error _ _ => exact hR

end Item.Kept

/-- Entries by the same author, failed for the same reason, with items that are related. -/
structure Entry.Like (R : List Item → List Item → Prop) (e e' : Entry) : Prop where
  role_eq : e.role = e'.role
  error_eq : e.error = e'.error
  content : R e.content e'.content

theorem forall₂_concat_iff {α β : Type} {R : α → β → Prop} {xs : List α} {ys : List β} {x : α}
    {y : β} : List.Forall₂ R (xs ++ [x]) (ys ++ [y]) ↔ List.Forall₂ R xs ys ∧ R x y := by
  rw [← List.forall₂_reverse_iff, List.reverse_concat, List.reverse_concat, List.forall₂_cons,
    List.forall₂_reverse_iff, and_comm]

namespace Panel

variable {R : List Item → List Item → Prop} {p q : Panel} {f g : Draft → Draft}
  {change change' : Entry → Nat → Entry × Nat}

/-- Panels that are given nothing but events and show, entry by entry, items that are related; both
have an active turn or neither has one. -/
structure Alongside (R : List Item → List Item → Prop) (p q : Panel) : Prop where
  left : p.Streamed
  right : q.Streamed
  active : p.active.isSome = q.active.isSome
  entries : List.Forall₂ (Entry.Like R) p.entries q.entries

/-- Edits of the active turn, one after the other, are one edit. -/
theorem onDraft_onDraft (h : p.Streamed) (hmode : ∀ d, (f d).mode = d.mode) :
    ((p.onDraft f).1.onDraft g).1 = (p.onDraft fun d => g (f d)).1 := by
  unfold onDraft
  cases h with
  | idle ha _ => rw [onTurn_of_active ha, onTurn_of_active ha, onTurn_of_active ha]
  | streaming es e he ha _ =>
    have hdraft : ∀ d : Draft, d.mode = p.mode → ⟨p.mode, d.items, d.issued⟩ = d := by
      rintro ⟨_, _, _⟩ rfl
      rfl
    rw [onTurn_concat he ha, onTurn_concat he ha]
    refine (onTurn_concat (p := { p with
      entries := es ++ [{ e with content := (f ⟨p.mode, e.content, p.issued⟩).items }]
      issued := (f ⟨p.mode, e.content, p.issued⟩).issued }) rfl ha).trans ?_
    dsimp only
    rw [hdraft _ (hmode _)]

namespace Alongside

theorem new (mode : Mode) : Alongside R { mode } { mode } :=
  ⟨.new mode, .new mode, rfl, .nil⟩

theorem refl (hR : ∀ is, R is is) (h : p.Streamed) : Alongside R p p :=
  ⟨h, h, rfl, List.forall₂_same.mpr fun e _ => ⟨rfl, rfl, hR e.content⟩⟩

/-- The active turns, if there are any, are the last entries. -/
theorem cases (h : Alongside R p q) : p.active = none ∧ q.active = none ∨
    ∃ es e es' e', (p.entries = es ++ [e] ∧ p.active = some e.id) ∧
      (q.entries = es' ++ [e'] ∧ q.active = some e'.id) ∧
      List.Forall₂ (Entry.Like R) es es' ∧ e.Like R e' := by
  obtain ⟨hp, hq, hactive, hentries⟩ := h
  cases hp with
  | idle ha _ =>
    rw [ha] at hactive
    exact .inl ⟨ha, Option.isNone_iff_eq_none.mp (Option.isSome_eq_false_iff.mp hactive.symm)⟩
  | streaming es e he ha _ =>
    cases hq with
    | idle ha' _ =>
      rw [ha, ha'] at hactive
      cases hactive
    | streaming es' e' he' ha' _ =>
      rw [he, he'] at hentries
      exact .inr ⟨es, e, es', e', ⟨he, ha⟩, ⟨he', ha'⟩, forall₂_concat_iff.mp hentries⟩

theorem onTurn (h : Alongside R p q) (hid : ∀ e n, (change e n).1.id = e.id)
    (hid' : ∀ e n, (change' e n).1.id = e.id)
    (hlike : ∀ e e' n n', e.Like R e' → (change e n).1.Like R (change' e' n').1) :
    Alongside R (p.onTurn change).1 (q.onTurn change').1 := by
  refine ⟨h.left.onTurn hid, h.right.onTurn hid', ?_, ?_⟩
  · rw [active_onTurn, active_onTurn]
    exact h.active
  · rcases h.cases with ⟨ha, ha'⟩ | ⟨es, e, es', e', ⟨he, ha⟩, ⟨he', ha'⟩, hes, hlast⟩
    · rw [onTurn_of_active ha, onTurn_of_active ha']
      exact h.entries
    · rw [onTurn_concat he ha, onTurn_concat he' ha']
      exact forall₂_concat_iff.mpr ⟨hes, hlike e e' _ _ hlast⟩

theorem onDraft (h : Alongside R p q)
    (hR : ∀ d d' : Draft, R d.items d'.items → R (f d).items (g d').items) :
    Alongside R (p.onDraft f).1 (q.onDraft g).1 :=
  h.onTurn (fun _ _ => rfl) (fun _ _ => rfl) fun e e' n n' hlike =>
    ⟨hlike.role_eq, hlike.error_eq,
      hR ⟨p.mode, e.content, n⟩ ⟨q.mode, e'.content, n'⟩ hlike.content⟩

theorem onDraft_left (h : Alongside R p q)
    (hR : ∀ (d : Draft) js, R d.items js → R (f d).items js) :
    Alongside R (p.onDraft f).1 q := by
  refine ⟨h.left.onTurn fun _ _ => rfl, h.right, ?_, ?_⟩
  · unfold Panel.onDraft
    rw [active_onTurn]
    exact h.active
  · unfold Panel.onDraft
    rcases h.cases with ⟨ha, _⟩ | ⟨es, e, es', e', ⟨he, ha⟩, ⟨he', _⟩, hes, hlast⟩
    · rw [onTurn_of_active ha]
      exact h.entries
    · rw [onTurn_concat he ha, he']
      exact forall₂_concat_iff.mpr ⟨hes, hlast.role_eq, hlast.error_eq,
        hR ⟨p.mode, e.content, p.issued⟩ _ hlast.content⟩

theorem settle (h : Alongside R p q) : List.Forall₂ (Entry.Like R) p.settle q.settle := by
  rcases h.cases with ⟨ha, ha'⟩ | ⟨es, e, es', e', ⟨he, ha⟩, ⟨he', ha'⟩, hes, hlast⟩
  · rw [settle_of_active ha, settle_of_active ha']
    exact h.entries
  · rw [settle_concat he ha, settle_concat he' ha']
    exact forall₂_concat_iff.mpr ⟨hes, hlast.role_eq, hlast.error_eq, hlast.content⟩

theorem openTurn (h : Alongside R p q) (hR : R [] []) : Alongside R p.openTurn q.openTurn := by
  refine ⟨h.left.openTurn, h.right.openTurn, ?_, ?_⟩
  · rw [h.left.openTurn_eq, h.right.openTurn_eq]
    rfl
  · rw [h.left.openTurn_eq, h.right.openTurn_eq]
    exact forall₂_concat_iff.mpr ⟨h.settle, rfl, rfl, hR⟩

theorem closeTurn (h : Alongside R p q) (failure : Option String) :
    Alongside R (p.closeTurn failure).1 (q.closeTurn failure).1 := by
  have hclosed (e : Entry) (n : Nat) :
      ({ e with kind := some .message, error := failure.or e.error }, n).1.id = e.id := rfl
  refine ⟨h.left.closeTurn failure, h.right.closeTurn failure, rfl, ?_⟩
  exact (h.onTurn hclosed hclosed fun e e' _ _ hlike =>
    ⟨hlike.role_eq, congrArg failure.or hlike.error_eq, hlike.content⟩).entries

/-- An event that is no log line does the same on both sides. -/
theorem apply (h : Alongside R p q) (hnil : R [] []) (hR : Item.Kept R) {e : Option SiteEvent}
    (he : e.any SiteEvent.isLog = false) :
    Alongside R (p.apply (.site e)) (q.apply (.site e)) := by
  rcases e with _ | e
  · exact h
  cases e with
  | start _ _ => exact h.openTurn hnil
  | ping _ => exact h
  | done _ | error _ _ => exact h.closeTurn _
  | log _ => cases he
  | delta _ | toolCall _ | toolOutput _ _ | progress _ _ | deployed _ _ =>
    exact h.onDraft fun d d' hd => hR.applySite hd he

end Alongside

/-! ## Log lines -/

/-- Log lines take nothing away and add nothing that is shown. -/
theorem alongside_withoutLogs (mode : Mode) (sites : List (Option SiteEvent)) :
    Alongside Item.ShownAs (ofSites mode sites) (ofSites mode (SiteEvent.withoutLogs sites)) := by
  induction sites using List.reverseRecOn with
  | nil => exact .new mode
  | append_singleton sites e ih =>
    unfold SiteEvent.withoutLogs at ih ⊢
    rw [List.filter_append, List.filter_singleton, ofSites_concat]
    cases he : e.any SiteEvent.isLog with
    | false =>
      rw [Bool.not_false, cond_true, ofSites_concat]
      exact ih.apply rfl Item.kept_shownAs he
    | true =>
      obtain ⟨line, rfl⟩ := SiteEvent.exists_log he
      rw [Bool.not_true, cond_false, List.append_nil]
      refine ih.onDraft_left fun d js h => ?_
      exact (congrArg (List.map Item.unnamed) (Item.shown_log d.items _ line)).trans h

/-- What comes after does not bring out a difference that does not show. -/
theorem alongside_append {mode : Mode} {sites sites' : List (Option SiteEvent)}
    (h : Alongside Item.SameShown (ofSites mode sites) (ofSites mode sites'))
    (after : List (Option SiteEvent)) :
    Alongside Item.SameShown (ofSites mode (sites ++ after)) (ofSites mode (sites' ++ after)) := by
  induction after using List.reverseRecOn with
  | nil => rwa [List.append_nil, List.append_nil]
  | append_singleton after e ih =>
    rw [← List.append_assoc, ← List.append_assoc, ofSites_concat, ofSites_concat]
    cases he : e.any SiteEvent.isLog with
    | false => exact ih.apply ⟨rfl, rfl⟩ Item.kept_sameShown he
    | true =>
      obtain ⟨line, rfl⟩ := SiteEvent.exists_log he
      exact ih.onDraft fun d d' hd => hd.log _ _ line line

/-- It does not show what a log line says. -/
theorem alongside_log (mode : Mode) (before after : List (Option SiteEvent)) (line line' : String) :
    Alongside Item.SameShown (ofSites mode (before ++ some (.log line) :: after))
      (ofSites mode (before ++ some (.log line') :: after)) := by
  have hbefore : Alongside Item.SameShown (ofSites mode before) (ofSites mode before) :=
    .refl (fun _ => ⟨rfl, rfl⟩) (streamed_ofSites mode before)
  rw [List.append_cons before _ after, List.append_cons before _ after]
  refine alongside_append ?_ after
  rw [ofSites_concat, ofSites_concat]
  exact hbefore.onDraft fun d d' hd => hd.log _ _ line line'

/-- It does not show whether a log line comes once or twice. -/
theorem alongside_log_log (mode : Mode) (before after : List (Option SiteEvent))
    (line line' : String) :
    Alongside Item.SameShown
      (ofSites mode (before ++ some (.log line) :: some (.log line') :: after))
      (ofSites mode (before ++ some (.log line) :: after)) := by
  have hstreamed := streamed_ofSites mode before
  have hbefore : Alongside Item.SameShown (ofSites mode before) (ofSites mode before) :=
    .refl (fun _ => ⟨rfl, rfl⟩) hstreamed
  rw [List.append_cons before _ after, List.append_cons before _ (_ :: after),
    List.append_cons (before ++ _) _ after]
  refine alongside_append ?_ after
  rw [ofSites_concat, ofSites_concat]
  have htwice : ((ofSites mode before).apply (.site (some (.log line)))).apply
      (.site (some (.log line'))) =
      ((ofSites mode before).onDraft fun d => (d.applySite (.log line)).applySite (.log line')).1 :=
    onDraft_onDraft hstreamed fun _ => rfl
  rw [htwice]
  exact hbefore.onDraft fun d d' hd => hd.log_log _ _ _ line line'

end Panel

end PromptStudio
