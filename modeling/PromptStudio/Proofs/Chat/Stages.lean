import PromptStudio.Proofs.Chat.ToolUses

/-!
# Stages that are not known

A stage that is not known leaves the percentage as it is only where the progress item still stands
last. The stream alone tells where it does (`ProgressLast`, `isSome_standing?_stream`): since some
progress event, nothing has come that adds an item. Anywhere else the turn starts again at 0,
however far it had come.
-/

namespace PromptStudio

/-! ## What adds no item -/

/-- The event adds no item behind a progress item, where these calls have been announced. -/
def SiteEvent.AddsNothing (known : List String) : SiteEvent → Prop
  | .delta _ | .log _ | .deployed _ _ => False
  | .toolCall calls => ∀ c ∈ calls, c.callId ∈ known
  | _ => True

/-- Since some progress event no item has been added. -/
def ProgressLast (events : List SiteEvent) : Prop :=
  ∃ before stage message after, events = before ++ .progress stage message :: after ∧
    ∀ e ∈ after, e.AddsNothing (callIds before)

section

variable {events before after : List SiteEvent} {known known' : List String} {e : SiteEvent}
  {callId stage message : String}

theorem SiteEvent.AddsNothing.mono (h : e.AddsNothing known)
    (hknown : ∀ callId ∈ known, callId ∈ known') : e.AddsNothing known' := by
  cases e with
  | toolCall calls => exact fun c hc => hknown _ (h c hc)
  | delta _ | log _ | deployed _ _ => exact h
  | _ => trivial

theorem SiteEvent.AddsNothing.mem_of_announces (h : e.AddsNothing known)
    (hcall : e.announces callId = true) : callId ∈ known := by
  cases e with
  | toolCall calls =>
    obtain ⟨c, hc, hid⟩ := List.any_eq_true.mp hcall
    exact beq_iff_eq.mp hid ▸ h c hc
  | _ => cases hcall

/-- What adds no item announces no new call. -/
theorem mem_callIds_of_addsNothing (hafter : ∀ e ∈ after, e.AddsNothing (callIds before)) :
    callId ∈ callIds (before ++ .progress stage message :: after) ↔ callId ∈ callIds before := by
  rw [mem_callIds_iff, mem_callIds_iff]
  constructor
  · rintro ⟨e, he, hcall⟩
    rcases List.mem_append.mp he with he | he
    · exact ⟨e, he, hcall⟩
    · rcases List.mem_cons.mp he with rfl | he
      · cases hcall
      · exact mem_callIds_iff.mp ((hafter e he).mem_of_announces hcall)
  · rintro ⟨e, he, hcall⟩
    exact ⟨e, List.mem_append_left _ he, hcall⟩

theorem not_progressLast_nil : ¬ ProgressLast [] := by
  rintro ⟨before, stage, message, after, h, _⟩
  exact List.cons_ne_nil _ _ (List.append_eq_nil_iff.mp h.symm).2

theorem progressLast_concat : ProgressLast (events ++ [e]) ↔
    (∃ stage message, e = .progress stage message) ∨
      ProgressLast events ∧ e.AddsNothing (callIds events) := by
  constructor
  · rintro ⟨before, stage, message, after, hsplit, hafter⟩
    rcases List.eq_nil_or_concat after with rfl | ⟨after, x, rfl⟩
    · exact .inl ⟨stage, message, List.singleton_inj.mp (List.append_inj' hsplit rfl).2⟩
    · rw [List.concat_eq_append, ← List.cons_append, ← List.append_assoc] at hsplit
      obtain ⟨rfl, hx⟩ := List.append_inj' hsplit rfl
      obtain rfl := List.singleton_inj.mp hx
      rw [List.concat_eq_append] at hafter
      obtain ⟨hafter, he⟩ := List.forall_mem_append.mp hafter
      refine .inr ⟨⟨before, stage, message, after, rfl, hafter⟩, ?_⟩
      exact (List.forall_mem_singleton.mp he).mono fun _ =>
        (mem_callIds_of_addsNothing hafter).mpr
  · rintro (⟨stage, message, rfl⟩ | ⟨⟨before, stage, message, after, rfl, hafter⟩, he⟩)
    · exact ⟨events, stage, message, [], rfl, fun _ he => absurd he List.not_mem_nil⟩
    · refine ⟨before, stage, message, after ++ [e], ?_, ?_⟩
      · rw [List.append_assoc, List.cons_append]
      · refine List.forall_mem_append.mpr ⟨hafter, List.forall_mem_singleton.mpr ?_⟩
        exact he.mono fun _ => (mem_callIds_of_addsNothing hafter).mp

end

/-! ## What stands last -/

namespace Draft

variable {d : Draft} {events : List SiteEvent} {merge : Item → Option Item} {make : String → Item}

/-- The percentage of the item that stands last, if it is progress. -/
def standing? (d : Draft) : Option Nat := d.items.getLast?.bind Item.progress?

theorem standing?_add (d : Draft) (make : String → Item) :
    (d.add make).standing? = (make (idOf d.mode (d.issued + 1))).progress? := by
  unfold standing?
  show (d.items ++ [_]).getLast?.bind _ = _
  rw [List.getLast?_concat]
  rfl

theorem standing?_onUse (d : Draft) (callId : String) (change : ToolUse → ToolUse) :
    (d.onUse callId change).standing? = d.standing? := by
  have hitems : (d.onUse callId change).items.map Item.progress? = d.items.map Item.progress? :=
    map_mapFirst (fun i => by cases i <;> rfl) d.items
  have hlast := congrArg (·.getLast?.bind id) hitems
  rw [List.getLast?_map, List.getLast?_map, Option.bind_map, Option.bind_map] at hlast
  exact hlast

/-- After items of one kind have been put together, one of them stands last. -/
theorem standing?_amend {P : Option Nat → Prop} (hmerge : ∀ i j, merge i = some j → P j.progress?)
    (hmake : ∀ id, P (make id).progress?) (d : Draft) : P (d.amend merge make).standing? := by
  rcases amend_cases d merge make with ⟨is, i, j, _, hij, hamend⟩ | ⟨_, hamend⟩
  · rw [hamend]
    unfold standing?
    rw [List.getLast?_concat]
    exact hmerge i j hij
  · rw [hamend, standing?_add]
    exact hmake _

theorem standing?_appendText (d : Draft) (words : String) :
    (d.appendText words).standing? = none := by
  rw [appendText_eq_amend]
  refine standing?_amend (P := (· = none)) (fun i j hij => ?_) (fun _ => rfl) d
  cases i with
  | text _ _ => obtain rfl := Option.some.inj hij; rfl
  | _ => cases hij

theorem isSome_standing?_setProgress (d : Draft) (percent : Option Nat) :
    (d.setProgress percent).standing?.isSome = true := by
  rw [setProgress_eq_amend]
  refine standing?_amend (P := (·.isSome = true)) (fun i j hij => ?_) (fun _ => rfl) d
  cases i with
  | progress _ _ => obtain rfl := Option.some.inj hij; rfl
  | _ => cases hij

/-- A call announced before is recorded in its item, and a new call in one of its own. -/
theorem isSome_standing?_recordCall (h : UsesOf events d.uses) (c : ToolCall) :
    (d.recordCall c).standing?.isSome = true ↔
      d.standing?.isSome = true ∧ c.callId ∈ callIds events := by
  have hknown : d.items.any (isUseOf c.callId) = true ↔ c.callId ∈ callIds events := by
    rw [any_isUseOf]
    exact h.any_callId c.callId
  unfold recordCall
  split
  next hany => rw [standing?_onUse, and_iff_left (hknown.mp hany)]
  next hany =>
    rw [standing?_add]
    exact iff_of_false Bool.false_ne_true fun ⟨_, hmem⟩ => hany (hknown.mpr hmem)

theorem isSome_standing?_calls (h : UsesOf events d.uses) (cs : List ToolCall) :
    (cs.foldl recordCall d).standing?.isSome = true ↔
      d.standing?.isSome = true ∧ ∀ c ∈ cs, c.callId ∈ callIds events := by
  induction cs generalizing d events with
  | nil => exact (and_iff_left fun _ hc => absurd hc List.not_mem_nil).symm
  | cons c cs ih =>
    -- once the call is recorded its id counts as known, which is no matter if it was before
    have hids : callIds (events ++ [.toolCall [c]]) = callIds events ++ [c.callId] := by
      unfold callIds
      rw [announced_concat, List.map_append]
      rfl
    have hrecorded : UsesOf (events ++ [.toolCall [c]]) (d.recordCall c).uses := h.calls [c]
    rw [List.foldl_cons, ih hrecorded, isSome_standing?_recordCall h, hids, List.forall_mem_cons,
      and_assoc]
    refine and_congr_right fun _ => and_congr_right fun hc => forall₂_congr fun c' _ => ?_
    rw [List.mem_append, List.mem_singleton, or_iff_left_of_imp]
    rintro heq
    exact heq ▸ hc

/-- A progress item stands last after a progress event, and for as long as no item is added. -/
theorem isSome_standing?_applySite (h : UsesOf events d.uses) (e : SiteEvent) :
    (d.applySite e).standing?.isSome = true ↔
      (∃ stage message, e = .progress stage message) ∨
        d.standing?.isSome = true ∧ e.AddsNothing (callIds events) := by
  cases e with
  | progress stage message =>
    exact iff_of_true (isSome_standing?_setProgress d _) (.inl ⟨stage, message, rfl⟩)
  | delta words =>
    show (d.appendText words).standing?.isSome = true ↔ _
    rw [standing?_appendText]
    simp [SiteEvent.AddsNothing]
  | toolCall cs =>
    refine (isSome_standing?_calls h cs).trans ?_
    simp [SiteEvent.AddsNothing]
  | toolOutput callId status =>
    show (d.onUse callId _).standing?.isSome = true ↔ _
    rw [standing?_onUse]
    simp [SiteEvent.AddsNothing]
  | log _ | deployed _ _ =>
    show (d.add _).standing?.isSome = true ↔ _
    rw [standing?_add]
    simp [SiteEvent.AddsNothing, Item.progress?]
  | start _ _ | ping _ | done _ | error _ _ =>
    show d.standing?.isSome = true ↔ _
    simp [SiteEvent.AddsNothing]

theorem isSome_standing?_stream (hd : d.items = []) (events : List SiteEvent) :
    (d.stream events).standing?.isSome = true ↔ ProgressLast events := by
  induction events using List.reverseRecOn with
  | nil =>
    refine iff_of_false ?_ not_progressLast_nil
    show ¬ (d.items.getLast?.bind _).isSome = true
    rw [hd]
    exact Bool.false_ne_true
  | append_singleton events e ih =>
    rw [stream_concat, isSome_standing?_applySite (UsesOf.stream hd events), ih,
      progressLast_concat]

/-! ## Unknown stages -/

/-- A percentage that stands last is left as it is. -/
theorem setProgress_none_of_standing (h : d.standing?.isSome = true) : d.setProgress none = d := by
  obtain ⟨n, hn⟩ := Option.isSome_iff_exists.mp h
  obtain ⟨i, hlast, hi⟩ := Option.bind_eq_some_iff.mp hn
  obtain ⟨is, his⟩ := List.getLast?_eq_some_iff.mp hlast
  cases i with
  | progress id before =>
    unfold setProgress
    rw [hlast]
    show { d with items := d.items.dropLast ++ [Item.progress id before] } = d
    rw [his, List.dropLast_concat, ← his]
  | _ => cases hi

/-- Without one a new item starts at 0. -/
theorem setProgress_none_of_not_standing (h : ¬ d.standing?.isSome = true) :
    d.setProgress none = d.add (.progress · 0) := by
  unfold setProgress
  split
  next id before hlast =>
    refine absurd ?_ h
    unfold standing?
    rw [hlast]
    rfl
  next => rfl

end Draft

/-! ## Turns -/

/-- The percentage of the last progress item. -/
def Entry.lastPercent? (e : Entry) : Option Nat := (e.content.filterMap Item.progress?).getLast?

theorem Entry.lastPercent?_concat {e : Entry} {content : List Item} {id : String} {percent : Nat}
    (h : e.content = content ++ [.progress id percent]) : e.lastPercent? = some percent := by
  unfold lastPercent?
  rw [h, filterMap_concat]
  exact List.getLast?_concat

theorem Entry.isSome_lastPercent? {e : Entry}
    (h : (e.content.getLast?.bind Item.progress?).isSome = true) :
    e.lastPercent?.isSome = true := by
  obtain ⟨n, hn⟩ := Option.isSome_iff_exists.mp h
  obtain ⟨i, hlast, hi⟩ := Option.bind_eq_some_iff.mp hn
  obtain ⟨is, his⟩ := List.getLast?_eq_some_iff.mp hlast
  cases i with
  | progress id percent => exact Option.isSome_iff_exists.mpr ⟨_, lastPercent?_concat his⟩
  | _ => cases hi

namespace Panel

/-- A stage that is not known leaves the turn as it is while the progress item stands last, and
otherwise adds an item that starts at 0. So the last percentage is kept exactly if no item has been
added since, or if there was nothing but 0 to keep. -/
theorem unknownStage_streamed (p : Panel) (taskId : String) (data : Option Value)
    (events : List SiteEvent) (h : ∀ e ∈ events, e.isMidTurn = true) (stage message : String)
    (hstage : stagePercent? stage = none) :
    let start := (p.applySite (.start taskId data)).1
    ∃ e e', (start.stream events).activeTurn? = some e ∧
      (start.stream (events ++ [.progress stage message])).activeTurn? = some e' ∧
      (ProgressLast events → e' = e) ∧
      (¬ ProgressLast events → ∃ id, e'.content = e.content ++ [.progress id 0]) ∧
      (e'.lastPercent? = some (e.lastPercent?.getD 0) ↔
        ProgressLast events ∨ e.lastPercent?.getD 0 = 0) := by
  intro start
  obtain ⟨es, e, hstart⟩ : ∃ es e, start.Drafts es e p.openedDraft := drafts_openTurn p
  have hall : ∀ x ∈ events ++ [.progress stage message], x.isMidTurn = true :=
    List.forall_mem_append.mpr ⟨h, List.forall_mem_singleton.mpr rfl⟩
  have hstep : p.openedDraft.stream (events ++ [.progress stage message]) =
      (p.openedDraft.stream events).setProgress none := by
    rw [Draft.stream_concat, ← hstage]
    rfl
  have hstanding := Draft.isSome_standing?_stream (d := p.openedDraft) rfl events
  refine ⟨_, _, (hstart.stream h).activeTurn?_eq, (hstart.stream hall).activeTurn?_eq, ?_⟩
  rw [hstep]
  by_cases hlast : ProgressLast events
  · rw [Draft.setProgress_none_of_standing (hstanding.mpr hlast)]
    refine ⟨fun _ => rfl, absurd hlast, iff_of_true ?_ (.inl hlast)⟩
    obtain ⟨n, hn⟩ := Option.isSome_iff_exists.mp
      (Entry.isSome_lastPercent? (e := { e with content := (p.openedDraft.stream events).items })
        (hstanding.mpr hlast))
    rw [hn]
    rfl
  · rw [Draft.setProgress_none_of_not_standing (mt hstanding.mp hlast)]
    refine ⟨fun hl => absurd hl hlast, fun _ => ⟨_, rfl⟩, ?_⟩
    rw [Entry.lastPercent?_concat rfl, Option.some_inj, or_iff_right hlast]
    exact eq_comm

/-- An output of a tool adds no item. -/
theorem unknownStage_streamed_output :
    let events : List SiteEvent := [.log "l", .progress "building" "", .toolOutput "c" .success]
    let start := (applySite { mode := .webCreator } (.start "t" none)).1
    (∀ e ∈ events, e.isMidTurn = true) ∧ stagePercent? "mounting" = none ∧
      ∃ e, (start.stream events).activeTurn? = some e ∧
        (start.stream (events ++ [.progress "mounting" ""])).activeTurn? = some e := by
  intro events start
  have h : ∀ e ∈ events, e.isMidTurn = true := by simp [events, SiteEvent.isMidTurn]
  have hlast : ProgressLast events :=
    ⟨[.log "l"], "building", "", [.toolOutput "c" .success], rfl,
      List.forall_mem_singleton.mpr trivial⟩
  obtain ⟨e, e', he, he', hkept, _⟩ :=
    unknownStage_streamed { mode := .webCreator } "t" none events h "mounting" "" rfl
  exact ⟨h, rfl, e, he, hkept hlast ▸ he'⟩

/-- After a log line the percentage is not kept. -/
theorem unknownStage_after_log :
    let q := (applySite { mode := .webCreator } (.start "t" none)).1.stream
      [.progress "building" "", .log "x"]
    stagePercent? "mounting" = none ∧ q.activeTurn?.bind Entry.lastPercent? = some 70 ∧
      (q.applySite (.progress "mounting" "")).1.activeTurn?.bind Entry.lastPercent? = some 0 := by
  intro q
  have h : ∀ e ∈ [SiteEvent.progress "building" "", .log "x"], e.isMidTurn = true := by
    simp [SiteEvent.isMidTurn]
  obtain ⟨es, e, hstart⟩ := drafts_openTurn { mode := .webCreator }
  have hq := hstart.stream h
  refine ⟨rfl, ?_, ?_⟩
  · exact congrArg (·.bind Entry.lastPercent?) hq.activeTurn?_eq
  · have hq' := hq.applySite (x := .progress "mounting" "") rfl
    exact congrArg (·.bind Entry.lastPercent?) hq'.activeTurn?_eq

end Panel

end PromptStudio
