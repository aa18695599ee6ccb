import Mathlib.Data.List.Forall2
import PromptStudio.Proofs.Chat.Alongside
import PromptStudio.Proofs.Chat.Kinds
import PromptStudio.Proofs.Chat.Streaming

/-!
# What a turn shows of its stream

While a turn is streamed nothing that came is lost, repeated or put in another order. Its text is
all pieces of text put together, and it has an item for each log line and each deployment
(`text_stream`, `filterMap_stream`). Every item is made by one event (`SiteEvent.Makes`), and the
items stand in the order of the events that made them (`exists_origins`). Pieces of text that stand
side by side are one item, and so are percentages (`keptApart_stream`).
-/

namespace PromptStudio

/-! ## Which event makes an item -/

namespace SiteEvent

/-- The event is one that items like this come from. What has been made may have changed since: a
text grows, a percentage is replaced, and a tool use is announced again or ends. -/
inductive Makes : SiteEvent → Item → Prop
  | text (content id words : String) : Makes (.delta content) (.text id words)
  | toolUse {calls : List ToolCall} (id : String) {use : ToolUse}
      (call : use.callId ∈ calls.map ToolCall.callId) : Makes (.toolCall calls) (.toolUse id use)
  | progress (stage message id : String) (percent : Nat) :
      Makes (.progress stage message) (.progress id percent)
  | log (content id : String) : Makes (.log content) (.log id content)
  | preview (url message id : String) :
      Makes (.deployed url message) (.preview id { url, message })

theorem Makes.grows {e : SiteEvent} {i j : Item} (h : e.Makes i) (hij : i.Grows j) : e.Makes j := by
  cases h with
  | text _ _ _ =>
    cases hij with
    | stays hij => cases hij; exact .text _ _ _
    | text _ _ _ => exact .text _ _ _
  | toolUse id hcall =>
    cases hij with
    | stays hij =>
      cases hij with
      | same => exact .toolUse id hcall
      | toolUse _ hsame _ => exact .toolUse id (hsame ▸ hcall)
  | progress _ _ _ _ =>
    cases hij with
    | stays hij => cases hij; exact .progress _ _ _ _
    | progress _ _ _ => exact .progress _ _ _ _
  | log _ _ => cases hij with | stays hij => cases hij; exact .log _ _
  | preview _ _ _ => cases hij with | stays hij => cases hij; exact .preview _ _ _

/-- The `n`th event made the item: the item is shown after it and was not before. Here `shown n` are
the ids of the items after the first `n` events. -/
structure Created (events : List SiteEvent) (shown : Nat → List String) (n : Nat) (i : Item) :
    Prop where
  makes : ∃ e, events[n]? = some e ∧ e.Makes i
  absent : i.id ∉ shown n
  present : i.id ∈ shown (n + 1)

theorem Created.lt {events : List SiteEvent} {shown : Nat → List String} {n : Nat} {i : Item}
    (h : Created events shown n i) : n < events.length := by
  obtain ⟨e, he, _⟩ := h.makes
  exact (List.getElem?_eq_some_iff.mp he).1

end SiteEvent

theorem length_mapFirst {α : Type} (p : α → Bool) (f : α → α) (xs : List α) :
    (mapFirst p f xs).length = xs.length := by
  have h := congrArg List.length
    (map_mapFirst (p := p) (f := f) (g := fun _ => ()) (fun _ => rfl) xs)
  rwa [List.length_map, List.length_map] at h

/-- A list that is another with related elements, and more behind them. -/
theorem exists_append_of_getElem? {α β : Type} {R : α → β → Prop} {xs : List α} {ys : List β}
    (h : ∀ (n : Nat) x, xs[n]? = some x → ∃ y, ys[n]? = some y ∧ R x y) :
    ∃ olds news, ys = olds ++ news ∧ List.Forall₂ R xs olds := by
  induction xs generalizing ys with
  | nil => exact ⟨[], ys, rfl, .nil⟩
  | cons x xs ih =>
    obtain ⟨y, hy, hxy⟩ := h 0 x rfl
    cases ys with
    | nil => cases hy
    | cons y' ys =>
      obtain rfl := Option.some.inj hy
      obtain ⟨olds, news, rfl, holds⟩ := ih fun n x hx => h (n + 1) x hx
      exact ⟨_ :: olds, news, rfl, .cons hxy holds⟩

theorem forall₂_trans {α β γ : Type} {A : α → β → Prop} {B : β → γ → Prop} {C : α → γ → Prop}
    {xs : List α} {ys : List β} {zs : List γ} (hA : List.Forall₂ A xs ys)
    (hB : List.Forall₂ B ys zs) (h : ∀ x y z, A x y → B y z → C x z) : List.Forall₂ C xs zs := by
  induction hA generalizing zs with
  | nil => cases hB; exact .nil
  | cons hxy _ ih =>
    cases hB with
    | cons hyz hrest => exact .cons (h _ _ _ hxy hyz) (ih hrest)

theorem forall₂_replicate {α β : Type} {R : α → β → Prop} {x : α} {ys : List β}
    (h : ∀ y ∈ ys, R x y) : List.Forall₂ R (List.replicate ys.length x) ys := by
  induction ys with
  | nil => exact .nil
  | cons y ys ih =>
    obtain ⟨hy, hys⟩ := List.forall_mem_cons.mp h
    exact .cons hy (ih hys)

namespace Draft

variable {d d' d'' : Draft} {P : Item → Prop} {merge : Item → Option Item} {make : String → Item}
  {events : List SiteEvent}

/-- Every item behind those of `d` has the property. -/
def AddsOnly (P : Item → Prop) (d d' : Draft) : Prop :=
  ∀ (n : Nat) i, d.items.length ≤ n → d'.items[n]? = some i → P i

theorem addsOnly_of_length (h : d'.items.length = d.items.length) : AddsOnly P d d' := by
  intro n i hn hi
  have hlt := (List.getElem?_eq_some_iff.mp hi).1
  omega

theorem addsOnly_add (hmake : ∀ id, P (make id)) (d : Draft) : AddsOnly P d (d.add make) := by
  intro n i hn hi
  have hnew : [make (idOf d.mode (d.issued + 1))][n - d.items.length]? = some i := by
    rwa [← List.getElem?_append_right hn]
  exact List.mem_singleton.mp (List.mem_of_getElem? hnew) ▸ hmake _

theorem addsOnly_amend (hmake : ∀ id, P (make id)) (d : Draft) :
    AddsOnly P d (d.amend merge make) := by
  rcases amend_cases d merge make with ⟨is, i, j, his, _, hamend⟩ | ⟨_, hamend⟩
  · rw [hamend]
    refine addsOnly_of_length ?_
    rw [his, List.length_append, List.length_append]
    rfl
  · rw [hamend]
    exact addsOnly_add hmake d

theorem addsOnly_onUse (d : Draft) (callId : String) (change : ToolUse → ToolUse) :
    AddsOnly P d (d.onUse callId change) :=
  addsOnly_of_length (length_mapFirst _ _ d.items)

/-- What was added first may have grown since. -/
theorem AddsOnly.trans (h : AddsOnly P d d') (h' : AddsOnly P d' d'') (hgrow : d'.Advances d'')
    (hP : ∀ i j, P i → i.Grows j → P j) : AddsOnly P d d'' := by
  intro n j hn hj
  by_cases hlt : n < d'.items.length
  · have hi := List.getElem?_eq_getElem hlt
    obtain ⟨j', hj', hij, _⟩ := hgrow.grow n _ hi
    obtain rfl := Option.some.inj (hj.symm.trans hj')
    exact hP _ _ (h n _ hn hi) hij
  · exact h' n j (Nat.le_of_not_lt hlt) hj

/-- All items that an event adds are of its making. -/
theorem addsOnly_applySite (d : Draft) (e : SiteEvent) : AddsOnly e.Makes d (d.applySite e) := by
  cases e with
  | delta content =>
    show AddsOnly _ d (d.appendText content)
    rw [appendText_eq_amend]
    exact addsOnly_amend (fun id => .text content id _) d
  | toolCall calls =>
    -- the calls are recorded one by one, and each is one of those announced
    have hcall : ∀ (d' : Draft), ∀ c ∈ calls,
        AddsOnly (SiteEvent.toolCall calls).Makes d' (d'.recordCall c) := by
      intro d' c hc
      unfold recordCall
      split
      · exact addsOnly_onUse d' _ _
      · exact addsOnly_add (fun id => .toolUse id (List.mem_map_of_mem hc)) d'
    exact List.foldlRecOn (motive := AddsOnly (SiteEvent.toolCall calls).Makes d) calls recordCall
      (addsOnly_of_length rfl) fun d' hd' c hc =>
        hd'.trans (hcall d' c hc) ((isEdit_recordCall c).advances d') fun _ _ => .grows
  | toolOutput callId status => exact addsOnly_onUse d _ _
  | progress stage message =>
    show AddsOnly _ d (d.setProgress (stagePercent? stage))
    rw [setProgress_eq_amend]
    exact addsOnly_amend (fun id => .progress stage message id _) d
  | log content => exact addsOnly_add (fun id => .log content id) d
  | deployed url message => exact addsOnly_add (fun id => .preview url message id) d
  | start _ _ | ping _ | done _ | error _ _ => exact addsOnly_of_length rfl

/-- The items of before have grown, and those behind them are of the event's making. -/
theorem exists_applySite (d : Draft) (e : SiteEvent) :
    ∃ olds news, (d.applySite e).items = olds ++ news ∧ List.Forall₂ Item.Grows d.items olds ∧
      ∀ i ∈ news, e.Makes i := by
  obtain ⟨olds, news, hitems, holds⟩ := exists_append_of_getElem? (R := Item.Grows)
    fun n i hi => by
      obtain ⟨j, hj, hij, _⟩ := ((isEdit_applySite e).advances d).grow n i hi
      exact ⟨j, hj, hij⟩
  refine ⟨olds, news, hitems, holds, fun i hi => ?_⟩
  obtain ⟨n, hn⟩ := List.mem_iff_getElem?.mp hi
  refine addsOnly_applySite d e (olds.length + n) i ?_ ?_
  · rw [holds.length_eq]
    exact Nat.le_add_right _ _
  · rw [hitems, List.getElem?_append_right (Nat.le_add_right _ _), Nat.add_sub_cancel_left, hn]

/-! ## The order of the items -/

/-- The ids of the items after the first `n` events. -/
def shownAfter (d : Draft) (events : List SiteEvent) (n : Nat) : List String :=
  (d.stream (events.take n)).items.map Item.id

theorem nodup_map_id_stream (hd : d.items = []) (events : List SiteEvent) :
    ((d.stream events).items.map Item.id).Nodup := by
  obtain ⟨k, _, hids⟩ := ((isEdit_stream events).advances d).ids
  rw [hids, hd]
  exact nodup_idsAfter _ _ _

theorem shownAfter_concat (d : Draft) (events : List SiteEvent) (e : SiteEvent) {n : Nat}
    (hn : n ≤ events.length) : d.shownAfter (events ++ [e]) n = d.shownAfter events n := by
  unfold shownAfter
  rw [List.take_append_of_le_length hn]

theorem shownAfter_length (d : Draft) (events : List SiteEvent) :
    d.shownAfter events events.length = (d.stream events).items.map Item.id := by
  unfold shownAfter
  rw [List.take_length]

theorem created_concat {n : Nat} {i j : Item} {e : SiteEvent}
    (h : SiteEvent.Created events (d.shownAfter events) n i) (hij : i.Grows j) :
    SiteEvent.Created (events ++ [e]) (d.shownAfter (events ++ [e])) n j := by
  have hlt := h.lt
  obtain ⟨⟨x, hx, hmakes⟩, habsent, hpresent⟩ := h
  refine ⟨⟨x, ?_, hmakes.grows hij⟩, ?_, ?_⟩
  · rw [List.getElem?_append_left hlt, hx]
  · rwa [shownAfter_concat d events e (Nat.le_of_lt hlt), hij.id_eq]
  · rwa [shownAfter_concat d events e hlt, hij.id_eq]

/-- The items stand in the order of the events that made them. -/
theorem exists_origins (hd : d.items = []) (events : List SiteEvent) :
    ∃ origins : List Nat, origins.Pairwise (· ≤ ·) ∧
      List.Forall₂ (SiteEvent.Created events (d.shownAfter events)) origins
        (d.stream events).items := by
  induction events using List.reverseRecOn with
  | nil =>
    refine ⟨[], .nil, ?_⟩
    show List.Forall₂ _ [] d.items
    rw [hd]
    exact .nil
  | append_singleton events e ih =>
    obtain ⟨origins, hsorted, horigins⟩ := ih
    obtain ⟨olds, news, hitems, holds, hnews⟩ := exists_applySite (d.stream events) e
    rw [← stream_concat] at hitems
    have hids : (d.stream events).items.map Item.id = olds.map Item.id := by
      rw [← List.forall₂_eq_eq_eq, List.forall₂_map_left_iff, List.forall₂_map_right_iff]
      exact holds.imp fun _ _ hij => hij.id_eq.symm
    have hnodup := nodup_map_id_stream hd (events ++ [e])
    rw [hitems, List.map_append, ← hids] at hnodup
    have hcreated : ∀ i ∈ news, SiteEvent.Created (events ++ [e]) (d.shownAfter (events ++ [e]))
        events.length i := by
      intro i hi
      refine ⟨⟨e, List.getElem?_concat_length, hnews i hi⟩, fun hold => ?_, ?_⟩
      · rw [shownAfter_concat d events e (Nat.le_refl _), shownAfter_length] at hold
        exact (List.nodup_append.mp hnodup).2.2 _ hold _ (List.mem_map_of_mem hi) rfl
      · have hall : d.shownAfter (events ++ [e]) (events.length + 1) =
            (d.stream (events ++ [e])).items.map Item.id := by
          rw [← shownAfter_length, List.length_append, List.length_singleton]
        rw [hall, hitems]
        exact List.mem_map_of_mem (List.mem_append_right _ hi)
    refine ⟨origins ++ List.replicate news.length events.length, ?_, ?_⟩
    · -- all items of before come from earlier events
      have hlt : ∀ m ∈ origins, m < events.length :=
        ((List.forall₂_and_left _ _).mp (horigins.imp fun _ _ h => ⟨h.lt, h⟩)).1
      refine List.pairwise_append.mpr
        ⟨hsorted, List.pairwise_replicate.mpr (.inr (Nat.le_refl _)), fun m hm n hn => ?_⟩
      obtain rfl := List.eq_of_mem_replicate hn
      exact Nat.le_of_lt (hlt m hm)
    · rw [hitems]
      refine List.rel_append ?_ (forall₂_replicate hcreated)
      exact forall₂_trans horigins holds fun _ _ _ => created_concat

/-! ## Text -/

/-- The texts of all text items, in order. -/
def text (d : Draft) : String := String.join (d.items.filterMap Item.text?)

theorem text_appendText (d : Draft) (words : String) :
    (d.appendText words).text = d.text ++ words := by
  rw [appendText_eq_amend]
  unfold text
  rcases amend_cases d (Item.extendText? words) (.text · words) with
    ⟨is, i, j, his, hij, hamend⟩ | ⟨_, hamend⟩
  · rw [hamend, his]
    cases i with
    | text id before =>
      obtain rfl := Option.some.inj hij
      simp [Item.text?, String.append_assoc, String.join]
    | _ => cases hij
  · rw [hamend, filterMap_add, String.join_append]
    simp [Item.text?, String.join]

/-- A piece of text is added to the text, and no other event touches it. -/
theorem text_applySite (d : Draft) (e : SiteEvent) :
    (d.applySite e).text = d.text ++ String.join e.delta?.toList := by
  cases he : e.delta? with
  | some words =>
    cases e with
    | delta content =>
      obtain rfl := Option.some.inj he
      exact (text_appendText d content).trans (by simp [String.join])
    | _ => cases he
  | none =>
    have hitem : ∀ id, (e.item? id).bind Item.text? = none := fun id => by cases e <;> rfl
    unfold text
    rw [filterMap_applySite (fun _ _ => rfl) (fun _ _ => rfl) d he, hitem, String.join_append]

theorem text_stream (d : Draft) (events : List SiteEvent) :
    (d.stream events).text = d.text ++ String.join (events.filterMap SiteEvent.delta?) := by
  induction events using List.reverseRecOn with
  | nil => exact String.append_empty.symm
  | append_singleton events e ih =>
    rw [stream_concat, text_applySite, ih, filterMap_concat, String.join_append,
      String.append_assoc]

/-! ## Log lines and deployments -/

/-- What reads only log lines and deployments sees those of the stream, one each, in their order. -/
theorem filterMap_stream {β : Type} {g : Item → Option β} {h : SiteEvent → Option β}
    (htext : ∀ id words, g (.text id words) = none) (huse : ∀ id use, g (.toolUse id use) = none)
    (hprogress : ∀ id percent, g (.progress id percent) = none)
    (hitem : ∀ id e, (SiteEvent.item? id e).bind g = h e) (d : Draft) (events : List SiteEvent) :
    (d.stream events).items.filterMap g = d.items.filterMap g ++ events.filterMap h := by
  induction events using List.reverseRecOn with
  | nil => exact (List.append_nil _).symm
  | append_singleton events e ih =>
    rw [stream_concat, filterMap_applySite_of_blind htext huse hprogress, hitem, ih,
      filterMap_concat, List.append_assoc]

/-! ## Side by side -/

theorem keptApart_add (h : Item.KeptApart d.items)
    (hjoin : ∀ (i : Item) id, i.join? (make id) = none) : Item.KeptApart (d.add make).items := by
  rw [items_add hjoin]
  exact h.takeUp _

theorem keptApart_recordCall (h : Item.KeptApart d.items) (c : ToolCall) :
    Item.KeptApart (d.recordCall c).items := by
  unfold recordCall
  split
  · exact h.onUse _ _
  · exact keptApart_add h fun i _ => by cases i <;> rfl

/-- An event puts together what it brings with what stands last, or changes tool uses. -/
theorem keptApart_applySite (h : Item.KeptApart d.items) (e : SiteEvent) :
    Item.KeptApart (d.applySite e).items := by
  cases e with
  | delta content =>
    show Item.KeptApart (d.appendText content).items
    rw [items_appendText]
    exact h.takeUp _
  | toolCall calls =>
    exact List.foldlRecOn (motive := fun d' : Draft => Item.KeptApart d'.items) calls recordCall h
      fun d' hd' c _ => keptApart_recordCall hd' c
  | toolOutput callId status => exact h.onUse _ _
  | progress stage _ =>
    show Item.KeptApart (d.setProgress (stagePercent? stage)).items
    rw [items_setProgress _ (stagePercent?_ne_zero stage)]
    exact h.takeUp _
  | log _ | deployed _ _ => exact keptApart_add h fun i _ => by cases i <;> rfl
  | start _ _ | ping _ | done _ | error _ _ => exact h

theorem keptApart_stream (hd : d.items = []) (events : List SiteEvent) :
    Item.KeptApart (d.stream events).items := by
  refine List.foldlRecOn (motive := fun d' : Draft => Item.KeptApart d'.items) events applySite ?_
    fun d' hd' e _ => keptApart_applySite hd' e
  rw [hd]
  exact .nil

end Draft

/-! ## Turns -/

/-- Both items are text, or both are progress. -/
def Item.Joinable (i j : Item) : Prop :=
  i.text?.isSome ∧ j.text?.isSome ∨ i.progress?.isSome ∧ j.progress?.isSome

theorem Item.join?_eq_none_iff {i j : Item} : i.join? j = none ↔ ¬ i.Joinable j := by
  cases i <;> cases j <;> simp [join?, Joinable, text?, progress?]

namespace Panel

/-- The ids of the items of the active turn. -/
def turnIds (p : Panel) : List String := p.activeTurn?.elim [] fun e => e.content.map Item.id

/-- What a turn shows of its stream. Its text is all pieces of text put together; its log lines and
its links are those of the stream, one each, in their order; its items stand in the order of the
events that made them; and no two texts stand side by side, nor two percentages. The event that
closes the turn leaves all this as it is. -/
theorem content_streamed (p : Panel) (taskId : String) (data : Option Value)
    (events : List SiteEvent) (h : ∀ e ∈ events, e.isMidTurn = true) :
    let start := (p.applySite (.start taskId data)).1
    let q := start.stream events
    ∃ i e, q.activeIndex? = some i ∧ q.entries[i]? = some e ∧
      e.text = String.join (events.filterMap SiteEvent.delta?) ∧
      e.content.filterMap Item.line? = events.filterMap SiteEvent.line? ∧
      e.content.filterMap Item.link? = events.filterMap SiteEvent.deployment? ∧
      (∃ origins : List Nat, origins.Pairwise (· ≤ ·) ∧
        List.Forall₂ (SiteEvent.Created events fun n => (start.stream (events.take n)).turnIds)
          origins e.content) ∧
      e.content.IsChain (fun i j => ¬ i.Joinable j) ∧
      ∀ x : SiteEvent, x.isTerminal = true →
        ((q.applySite x).1.entries[i]?).map Entry.content = some e.content := by
  intro start q
  obtain ⟨es, e, hstart⟩ : ∃ es e, start.Drafts es e p.openedDraft := drafts_openTurn p
  have hq := hstart.stream h
  have hshown : (fun n => (start.stream (events.take n)).turnIds) =
      p.openedDraft.shownAfter events := by
    funext n
    have hmid : ∀ x ∈ events.take n, x.isMidTurn = true := fun x hx =>
      h x (List.mem_of_mem_take hx)
    unfold turnIds
    rw [(hstart.stream hmid).activeTurn?_eq]
    rfl
  refine ⟨_, _, hq.activeIndex?_eq, hq.getElem?_eq, ?_, ?_, ?_, ?_, ?_, fun x hx => ?_⟩
  · exact (Draft.text_stream _ events).trans String.empty_append
  · exact Draft.filterMap_stream (fun _ _ => rfl) (fun _ _ => rfl) (fun _ _ => rfl)
      (fun _ x => by cases x <;> rfl) _ events
  · exact Draft.filterMap_stream (fun _ _ => rfl) (fun _ _ => rfl) (fun _ _ => rfl)
      (fun _ x => by cases x <;> rfl) _ events
  · rw [hshown]
    exact Draft.exists_origins rfl events
  · exact (Draft.keptApart_stream rfl events).imp fun _ _ => Item.join?_eq_none_iff.mp
  · exact hq.content_applySite hx

/-- Text before and after a tool call's output is one text, and a log line parts it. -/
theorem content_streamed_mixed :
    let events : List SiteEvent := [.delta "a", .toolOutput "c" .success, .delta "b", .log "l",
      .progress "building" "", .progress "deploying" "", .deployed "/p" "ok", .delta "c"]
    let q := ((applySite { mode := .webCreator } (.start "t" none)).1).stream events
    (∀ e ∈ events, e.isMidTurn = true) ∧ SiteEvent.isTerminal (.done none) = true ∧
      ∃ (i : Nat) (e : Entry), q.entries[i]? = some e ∧ e.text = "abc" ∧
        e.content.filterMap Item.line? = ["l"] ∧
        e.content.filterMap Item.link? = [{ url := "/p", message := "ok" }] ∧
        ((q.applySite (.done none)).1.entries[i]?).map Entry.content = some e.content := by
  intro events q
  have h : ∀ e ∈ events, e.isMidTurn = true := by simp [events, SiteEvent.isMidTurn]
  obtain ⟨i, e, _, he, htext, hlines, hlinks, _, _, hend⟩ :=
    content_streamed { mode := .webCreator } "t" none events h
  exact ⟨h, rfl, i, e, he, htext, hlines, hlinks, hend (.done none) rfl⟩

end Panel

end PromptStudio
