import PromptStudio.Proofs.Chat.WellFormed

/-!
# Turns stand apart

A panel that is given nothing but events shows finished replies and, behind them, the active turn
(`Streamed`), so a start always adds a reply. From there on the panel does what a new panel does:
`Follows` relates the two, up to the numbers of the ids, and no event can tell them apart
(`Follows.apply`). `turns_apart` puts the transcripts together.
-/

namespace PromptStudio

/-- The item with its id changed. -/
def Item.mapId (f : String → String) (i : Item) : Item := i.withId (f i.id)

/-- The entry with its id and those of its items changed. -/
def Entry.mapIds (f : String → String) (e : Entry) : Entry :=
  { e with id := f e.id, content := e.content.map (Item.mapId f) }

namespace Draft

variable {d d' : Draft} {f : Draft → Draft} {n : Nat}

/-- The draft is the same, in a panel that had handed out `n` more ids before. -/
structure Shifted (n : Nat) (d d' : Draft) : Prop where
  mode_eq : d.mode = d'.mode
  items : d.items = d'.items.map (Item.mapId (renumber d'.mode n))
  issued : d.issued = d'.issued + n

theorem Shifted.alike (h : d.Shifted n d') : d.Alike d' := by
  unfold Alike
  rw [h.items, List.map_map]
  exact List.map_congr_left fun i _ => Item.unnamed_withId i _

theorem Shifted.map_id (h : d.Shifted n d') :
    d.items.map Item.id = (d'.items.map Item.id).map (renumber d'.mode n) := by
  rw [h.items, List.map_map, List.map_map]
  exact List.map_congr_left fun i _ => Item.id_withId i _

/-- Edits do not look at ids and hand out the same number of them, so they keep drafts shifted. -/
theorem IsEdit.shifted (hf : IsEdit f) (h : d.Shifted n d') : (f d).Shifted n (f d') := by
  obtain ⟨k, hissued, hids⟩ := (hf.advances d).ids
  obtain ⟨k', hissued', hids'⟩ := (hf.advances d').ids
  have halike : (f d).items.map Item.unnamed = (f d').items.map Item.unnamed :=
    hf.alike d d' h.alike
  have hmode : (f d').mode = d'.mode := (hf.advances d').mode_eq
  obtain rfl : k = k' := by
    have hlen := congrArg List.length halike
    have hcount := congrArg List.length hids
    have hcount' := congrArg List.length hids'
    have hold := congrArg List.length h.items
    simp only [List.length_map, List.length_append, idsAfter, List.length_range] at *
    omega
  refine ⟨?_, Item.eq_of_map_unnamed ?_ ?_, ?_⟩
  · rw [(hf.advances d).mode_eq, h.mode_eq, hmode]
  · rw [halike, List.map_map]
    exact (List.map_congr_left fun i _ => Item.unnamed_withId i _).symm
  · have hsecond : ((f d').items.map (Item.mapId (renumber (f d').mode n))).map Item.id =
        ((f d').items.map Item.id).map (renumber d'.mode n) := by
      rw [hmode, List.map_map, List.map_map]
      exact List.map_congr_left fun i _ => Item.id_withId i _
    rw [hsecond, hids, hids', List.map_append, map_renumber_idsAfter, h.map_id, h.mode_eq, h.issued]
  · rw [hissued, hissued', h.issued, Nat.add_right_comm]

end Draft

namespace Panel

variable {p q : Panel} {pre es : List Entry} {e : Entry} {n : Nat} {start : Event}
  {change change' : Entry → Nat → Entry × Nat}

/-- The transcript with its active turn, if there is one, finished. -/
def finished (p : Panel) : List Entry :=
  p.entries.map fun e => if p.active = some e.id then { e with kind := some .message } else e

/-! ## Panels that are given nothing but events -/

/-- Every entry is finished, save for the active turn, which comes last. -/
inductive Streamed (p : Panel) : Prop
  | idle (active : p.active = none) (closed : ∀ e ∈ p.entries, e.kind = some .message)
  | streaming (es : List Entry) (e : Entry) (entries : p.entries = es ++ [e])
      (active : p.active = some e.id) (closed : ∀ e ∈ es, e.kind = some .message)

theorem settle_of_active (ha : p.active = none) : p.settle = p.entries := by
  unfold settle
  rw [activeIndex?_of_active ha]

theorem settle_concat (he : p.entries = es ++ [e]) (ha : p.active = some e.id) :
    p.settle = es ++ [{ e with kind := some .message }] := by
  unfold settle
  rw [activeIndex?_concat he ha, he]
  dsimp only
  rw [List.modify_eq_set_getElem?, List.getElem?_concat_length]
  simp

namespace Streamed

theorem forall_mem_finish (hclosed : ∀ x ∈ es, x.kind = some .message) (error : Option String) :
    ∀ x ∈ es ++ [{ e with kind := some .message, error }], x.kind = some .message :=
  List.forall_mem_append.mpr ⟨hclosed, List.forall_mem_singleton.mpr rfl⟩

theorem closed_settle (h : p.Streamed) : ∀ e ∈ p.settle, e.kind = some .message := by
  cases h with
  | idle ha hclosed =>
    rw [settle_of_active ha]
    exact hclosed
  | streaming es e he ha hclosed =>
    rw [settle_concat he ha]
    exact forall_mem_finish hclosed e.error

/-- A finished reply is no placeholder, so a start adds a reply. -/
theorem openTurn_eq (h : p.Streamed) :
    p.openTurn =
      { p with
        entries := p.settle ++ [Entry.loading (idOf p.mode (p.issued + 1)) p.mode]
        active := some (idOf p.mode (p.issued + 1))
        issued := p.issued + 1 } := by
  rcases openTurn_cases p with ⟨e, hlast, hplace, _⟩ | hopen
  · have hkind := h.closed_settle e (List.mem_of_getLast? hlast)
    simp [isPlaceholder, Entry.isLoading, hkind] at hplace
  · exact hopen

theorem new (mode : Mode) : ({ mode } : Panel).Streamed :=
  .idle rfl fun _ he => absurd he List.not_mem_nil

theorem openTurn (h : p.Streamed) : p.openTurn.Streamed := by
  rw [h.openTurn_eq]
  exact .streaming _ _ rfl rfl h.closed_settle

theorem onTurn (h : p.Streamed) (hid : ∀ e n, (change e n).1.id = e.id) :
    (p.onTurn change).1.Streamed := by
  cases h with
  | idle ha hclosed =>
    rw [onTurn_of_active ha]
    exact .idle ha hclosed
  | streaming es e he ha hclosed =>
    rw [onTurn_concat he ha]
    exact .streaming es _ rfl (hid e p.issued ▸ ha) hclosed

theorem closeTurn (h : p.Streamed) (failure : Option String) :
    (p.closeTurn failure).1.Streamed := by
  unfold Panel.closeTurn
  dsimp only
  cases h with
  | idle ha hclosed =>
    rw [onTurn_of_active ha]
    exact .idle rfl hclosed
  | streaming es e he ha hclosed =>
    rw [onTurn_concat he ha]
    exact .idle rfl (forall_mem_finish hclosed _)

theorem apply (h : p.Streamed) (x : Event) : (p.apply x).Streamed := by
  rcases apply_cases x with ⟨_, hx⟩ | ⟨_, hx | ⟨failure, hx⟩ | ⟨_, _, _, _, hx⟩⟩
  · rw [hx]
    exact h.openTurn
  · rw [hx]
    exact h
  · rw [hx]
    exact h.closeTurn failure
  · rw [hx]
    exact h.onTurn fun _ _ => rfl

/-- The active turn is the last entry and no other, so finishing it is one edit at the end. -/
theorem settle_eq_finished (h : p.Streamed) (hids : (p.entries.map Entry.id).Nodup) :
    p.settle = p.finished := by
  unfold finished
  cases h with
  | idle ha _ =>
    rw [settle_of_active ha, ha]
    exact (List.map_id' p.entries).symm
  | streaming es e he ha _ =>
    rw [settle_concat he ha, he, ha, List.map_append]
    rw [he, List.map_append, List.map_singleton] at hids
    have hothers : ∀ x ∈ es, ¬ some e.id = some x.id := by
      intro x hx hid
      have hne := (List.nodup_append.mp hids).2.2 x.id (List.mem_map_of_mem hx) e.id
        (List.mem_singleton.mpr rfl)
      exact hne (Option.some.inj hid).symm
    have hkept : es.map (fun x => if some e.id = some x.id then
        { x with kind := some .message } else x) = es :=
      (List.map_congr_left fun x hx => if_neg (hothers x hx)).trans (List.map_id' es)
    rw [hkept, List.map_singleton, if_pos rfl]

end Streamed

theorem streamed_ofEvents (mode : Mode) (events : List Event) :
    (ofEvents mode events).Streamed := by
  unfold ofEvents
  exact List.foldlRecOn events apply (.new mode) fun p hp x _ => hp.apply x

theorem streamed_ofSites (mode : Mode) (sites : List (Option SiteEvent)) :
    (ofSites mode sites).Streamed :=
  streamed_ofEvents mode _

theorem settle_ofEvents (mode : Mode) (events : List Event) :
    (ofEvents mode events).settle = (ofEvents mode events).finished := by
  refine (streamed_ofEvents mode events).settle_eq_finished ?_
  rw [ofEvents_eq_ofInputs]
  exact (wellFormed_ofInputs mode _).nodup_map_id

/-! ## The same turns behind others -/

/-- The panel `p` shows behind `pre` what `q` shows, with the ids of a panel that had handed out `n`
of them before. -/
structure Follows (pre : List Entry) (n : Nat) (p q : Panel) : Prop where
  mode_eq : p.mode = q.mode
  entries : p.entries = pre ++ q.entries.map (Entry.mapIds (renumber q.mode n))
  active : p.active = q.active.map (renumber q.mode n)
  issued : p.issued = q.issued + n

namespace Follows

theorem active_eq_none (h : Follows pre n p q) (ha : q.active = none) : p.active = none := by
  rw [h.active, ha]
  rfl

theorem entries_concat (h : Follows pre n p q) (he : q.entries = es ++ [e]) :
    p.entries = (pre ++ es.map (Entry.mapIds (renumber q.mode n))) ++
      [e.mapIds (renumber q.mode n)] := by
  rw [h.entries, he, List.map_append, List.append_assoc]
  rfl

theorem active_concat (h : Follows pre n p q) (ha : q.active = some e.id) :
    p.active = some (e.mapIds (renumber q.mode n)).id := by
  rw [h.active, ha]
  rfl

/-- What is finished stays in front. -/
theorem settle (h : Follows pre n p q) (hq : q.Streamed) :
    p.settle = pre ++ q.settle.map (Entry.mapIds (renumber q.mode n)) := by
  cases hq with
  | idle ha _ => rw [settle_of_active ha, settle_of_active (h.active_eq_none ha), h.entries]
  | streaming es e he ha _ =>
    rw [settle_concat he ha, settle_concat (h.entries_concat he) (h.active_concat ha),
      List.map_append, List.append_assoc]
    rfl

theorem detach (h : Follows pre n p q) : Follows pre n p.detach q.detach :=
  ⟨h.mode_eq, h.entries, rfl, h.issued⟩

theorem openTurn (h : Follows pre n p q) (hp : p.Streamed) (hq : q.Streamed) :
    Follows pre n p.openTurn q.openTurn := by
  have hid : idOf p.mode (p.issued + 1) = renumber q.mode n (idOf q.mode (q.issued + 1)) := by
    rw [renumber_idOf, h.mode_eq, h.issued, Nat.add_right_comm]
  rw [hp.openTurn_eq, hq.openTurn_eq, hid]
  refine ⟨h.mode_eq, ?_, rfl, ?_⟩
  · rw [h.settle hq, h.mode_eq, List.map_append, List.append_assoc]
    rfl
  · show p.issued + 1 = q.issued + 1 + n
    rw [h.issued, Nat.add_right_comm]

theorem onTurn (h : Follows pre n p q) (hq : q.Streamed)
    (hchange : ∀ e k, change (e.mapIds (renumber q.mode n)) (k + n) =
      ((change' e k).1.mapIds (renumber q.mode n), (change' e k).2 + n)) :
    Follows pre n (p.onTurn change).1 (q.onTurn change').1 := by
  cases hq with
  | idle ha _ =>
    rw [onTurn_of_active ha, onTurn_of_active (h.active_eq_none ha)]
    exact h
  | streaming es e he ha _ =>
    rw [onTurn_concat he ha, onTurn_concat (h.entries_concat he) (h.active_concat ha), h.issued,
      hchange]
    refine ⟨h.mode_eq, ?_, h.active, rfl⟩
    rw [List.map_append, List.append_assoc]
    rfl

theorem closeTurn (h : Follows pre n p q) (hq : q.Streamed) (failure : Option String) :
    Follows pre n (p.closeTurn failure).1 (q.closeTurn failure).1 := by
  unfold Panel.closeTurn
  exact (h.onTurn hq fun _ _ => rfl).detach

theorem redraft {draft : Draft → Draft} (h : Follows pre n p q) (hq : q.Streamed)
    (hdraft : Draft.IsEdit draft) (kind : Option EntryKind → Option EntryKind) :
    Follows pre n (p.redraft draft kind) (q.redraft draft kind) := by
  refine h.onTurn hq fun e k => ?_
  have hbefore : Draft.Shifted n ⟨p.mode, (e.mapIds (renumber q.mode n)).content, k + n⟩
      ⟨q.mode, e.content, k⟩ := ⟨h.mode_eq, rfl, rfl⟩
  have hshifted := hdraft.shifted hbefore
  have hitems := hshifted.items
  rw [(hdraft.advances ⟨q.mode, e.content, k⟩).mode_eq] at hitems
  exact Prod.ext (congrArg (fun content : List Item =>
    { e.mapIds (renumber q.mode n) with kind := kind e.kind, content }) hitems) hshifted.issued

/-- No event can tell the panels apart. -/
theorem apply (h : Follows pre n p q) (hp : p.Streamed) (hq : q.Streamed) (x : Event) :
    Follows pre n (p.apply x) (q.apply x) := by
  rcases apply_cases x with ⟨_, hx⟩ | ⟨_, hx | ⟨failure, hx⟩ | ⟨_, kind, hdraft, _, hx⟩⟩
  · rw [hx, hx]
    exact h.openTurn hp hq
  · rwa [hx, hx]
  · rw [hx, hx]
    exact h.closeTurn hq failure
  · rw [hx, hx]
    exact h.redraft hq hdraft kind

theorem foldl_apply (h : Follows pre n p q) (hp : p.Streamed) (hq : q.Streamed)
    (events : List Event) :
    Follows pre n (events.foldl Panel.apply p) (events.foldl Panel.apply q) := by
  induction events generalizing p q with
  | nil => exact h
  | cons x events ih =>
    rw [List.foldl_cons, List.foldl_cons]
    exact ih (h.apply hp hq x) (hp.apply x) (hq.apply x)

end Follows

/-- A start behind finished turns opens the turn that it opens in a new panel. -/
theorem follows_apply_start (hp : p.Streamed) (hstart : start.isStart = true) :
    Follows p.settle p.issued (p.apply start) (({ mode := p.mode } : Panel).apply start) := by
  have hid : idOf p.mode (p.issued + 1) = renumber p.mode p.issued (idOf p.mode 1) := by
    rw [renumber_idOf, Nat.add_comm]
  rw [apply_of_isStart hstart, apply_of_isStart hstart, hp.openTurn_eq,
    (Streamed.new _).openTurn_eq, hid]
  exact ⟨rfl, rfl, rfl, Nat.add_comm _ _⟩

theorem exists_idOf_of_mem_ids {mode : Mode} {events : List Event} {id : String}
    (h : id ∈ (ofEvents mode events).ids) : ∃ k, id = idOf mode k := by
  rw [ofEvents_eq_ofInputs] at h
  have hmode := mode_ofEvents mode events
  rw [ofEvents_eq_ofInputs] at hmode
  have hid := (wellFormed_ofInputs mode _).ids_perm.subset h
  rw [hmode] at hid
  obtain ⟨j, _, hj⟩ := List.mem_map.mp hid
  exact ⟨_, hj.symm⟩

/-- Turns do not show in each other. What a panel shows after a start does not depend on what came
before, save that ids are counted on, and what came before stays as it was, finished. -/
theorem turns_apart (mode : Mode) (before after : List Event) (hstart : start.isStart = true) :
    let p := ofEvents mode before
    let q := ofEvents mode (start :: after)
    let r := ofEvents mode (before ++ start :: after)
    r.entries = p.finished ++ q.entries.map (Entry.mapIds (renumber mode p.issued)) ∧
      r.active = q.active.map (renumber mode p.issued) ∧
      ∀ id ∈ q.ids, ∃ k, id = idOf mode k ∧
        renumber mode p.issued id = idOf mode (k + p.issued) := by
  intro p q r
  have hp : p.Streamed := streamed_ofEvents mode before
  have hmode : p.mode = mode := mode_ofEvents mode before
  have hqmode : q.mode = mode := mode_ofEvents mode (start :: after)
  have hr : r = after.foldl apply (p.apply start) := List.foldl_append
  have hfirst := follows_apply_start hp hstart
  have hrest : Follows p.settle p.issued r q := by
    rw [hr]
    rw [hmode] at hfirst
    exact hfirst.foldl_apply (hp.apply start) ((Streamed.new mode).apply start) after
  refine ⟨?_, ?_, fun id hid => ?_⟩
  · rw [hrest.entries, hqmode, settle_ofEvents]
  · rw [hrest.active, hqmode]
  · obtain ⟨k, rfl⟩ := exists_idOf_of_mem_ids hid
    exact ⟨k, rfl, renumber_idOf mode k p.issued⟩

/-- Two turns call a tool by the same id. The output is taken up by the second alone. -/
theorem turns_apart_same_call :
    let start := Event.site (some (.start "t" none))
    let call := Event.site (some (.toolCall [{ callId := "c", tool := "bash", args := .null }]))
    let output := Event.site (some (.toolOutput "c" .success))
    let use (n : Nat) (status : Option ToolStatus) :=
      Item.toolUse (idOf .webCreator n) { callId := "c", tool := "bash", input := .null, status }
    let r := ofEvents .webCreator ([start, call] ++ start :: [call, output])
    start.isStart = true ∧
      r.entries.map Entry.content = [[use 2 none], [use 4 (some .success)]] ∧
      r.active = some (idOf .webCreator 3) := by
  intro start call output use r
  obtain ⟨hentries, hactive, _⟩ := turns_apart .webCreator [start, call] [call, output]
    (show start.isStart = true from rfl)
  have hrenumber : renumber .webCreator 2 (idOf .webCreator 2) = idOf .webCreator 4 :=
    renumber_idOf _ _ _
  refine ⟨rfl, ?_, ?_⟩
  · rw [hentries]
    show [[use 2 none], [Item.toolUse (renumber .webCreator 2 (idOf .webCreator 2)) _]] = _
    rw [hrenumber]
  · rw [hactive]
    exact congrArg some (renumber_idOf .webCreator 1 2)

end Panel

end PromptStudio
