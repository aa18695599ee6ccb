import Mathlib.Data.List.Forall2
import Mathlib.Data.List.Induction
import Mathlib.Data.List.Nodup
import Mathlib.Data.List.TakeWhile
import PromptStudio.Proofs.Chat.Alongside
import PromptStudio.Proofs.Chat.Kinds
import PromptStudio.Proofs.Chat.Streaming

/-!
# Tool uses

What a turn shows of a tool call is told by the stream alone (`useOf?`): the call as it was
announced last, and the status of its last output, where an output that comes before the first
announcement does not count. `UsesOf` says that a list of tool uses is one for each call announced,
in the order in which they were announced first; it is kept by an announcement (`UsesOf.call`) and
by an output (`UsesOf.output`), and so holds of every turn.
-/

namespace PromptStudio

/-! ## What a stream tells of its calls -/

namespace SiteEvent

/-- The tool calls that an event announces. -/
def calls : SiteEvent → List ToolCall
  | .toolCall calls => calls
  | _ => []

/-- The event announces the call. -/
def announces (callId : String) (e : SiteEvent) : Bool := e.calls.any (·.callId == callId)

/-- How the call ended, if the event is its output. -/
def statusOf? (callId : String) : SiteEvent → Option ToolStatus
  | .toolOutput id status => if id = callId then some status else none
  | _ => none

end SiteEvent

/-- All announcements, in order. -/
def announced (events : List SiteEvent) : List ToolCall := events.flatMap SiteEvent.calls

/-- The ids of the calls announced, in order. -/
def callIds (events : List SiteEvent) : List String := (announced events).map ToolCall.callId

/-- The last announcement of a call. -/
def lastCall? (events : List SiteEvent) (callId : String) : Option ToolCall :=
  ((announced events).filter (·.callId == callId)).getLast?

/-- The status of the last output of a call that comes after the call was first announced. -/
def lastStatus? (events : List SiteEvent) (callId : String) : Option ToolStatus :=
  ((events.dropWhile (!·.announces callId)).filterMap (·.statusOf? callId)).getLast?

/-- The use that a turn shows of a call. -/
def useOf? (events : List SiteEvent) (callId : String) : Option ToolUse :=
  (lastCall? events callId).map fun c =>
    { callId, tool := c.tool, input := c.args, status := lastStatus? events callId }

section

variable {events events' : List SiteEvent} {e : SiteEvent} {c : ToolCall} {callId : String}
  {status : ToolStatus} {use : ToolUse}

theorem announced_concat (events : List SiteEvent) (e : SiteEvent) :
    announced (events ++ [e]) = announced events ++ e.calls := by
  unfold announced
  rw [List.flatMap_append, List.flatMap_singleton]

theorem mem_callIds_iff : callId ∈ callIds events ↔ ∃ e ∈ events, e.announces callId = true := by
  simp only [callIds, announced, SiteEvent.announces, List.mem_map, List.mem_flatMap,
    List.any_eq_true, beq_iff_eq]
  constructor
  · rintro ⟨c, ⟨e, he, hc⟩, hid⟩
    exact ⟨e, he, c, hc, hid⟩
  · rintro ⟨e, he, c, hc, hid⟩
    exact ⟨c, ⟨e, he, hc⟩, hid⟩

/-- Nothing counts as long as the call has not been announced. -/
theorem dropWhile_eq_nil_iff :
    events.dropWhile (!·.announces callId) = [] ↔ callId ∉ callIds events := by
  rw [List.dropWhile_eq_nil_iff, mem_callIds_iff]
  simp

theorem lastStatus?_of_not_mem (h : callId ∉ callIds events) :
    lastStatus? events callId = none := by
  unfold lastStatus?
  rw [dropWhile_eq_nil_iff.mpr h]
  rfl

/-- An output counts if its call has been announced before. -/
theorem lastStatus?_concat (h : callId ∈ callIds events) (e : SiteEvent) :
    lastStatus? (events ++ [e]) callId = (e.statusOf? callId).or (lastStatus? events callId) := by
  have hcounts : ¬ (events.dropWhile (!·.announces callId)).isEmpty = true := by
    rw [List.isEmpty_iff, dropWhile_eq_nil_iff]
    exact not_not_intro h
  unfold lastStatus?
  rw [List.dropWhile_append, if_neg hcounts, filterMap_concat, List.getLast?_append]
  cases e.statusOf? callId <;> rfl

theorem lastStatus?_concat_of_not_mem (h : callId ∉ callIds events) (e : SiteEvent) :
    lastStatus? (events ++ [e]) callId = none := by
  have hone : e.announces callId = false ∨ e.statusOf? callId = none := by
    cases e <;> simp [SiteEvent.announces, SiteEvent.calls, SiteEvent.statusOf?]
  unfold lastStatus?
  rw [List.dropWhile_append, dropWhile_eq_nil_iff.mpr h]
  rcases hone with hother | houtput
  · simp [hother]
  · by_cases hannounces : e.announces callId = true <;> simp [hannounces, houtput]

/-- What is no output leaves the status of every call as it is. -/
theorem lastStatus?_concat_of_forall (h : ∀ callId, e.statusOf? callId = none) (callId : String) :
    lastStatus? (events ++ [e]) callId = lastStatus? events callId := by
  by_cases hmem : callId ∈ callIds events
  · rw [lastStatus?_concat hmem, h, Option.none_or]
  · rw [lastStatus?_concat_of_not_mem hmem, lastStatus?_of_not_mem hmem]

theorem mem_callIds_of_useOf? (h : useOf? events callId = some use) : callId ∈ callIds events := by
  obtain ⟨c, hc, _⟩ := Option.map_eq_some_iff.mp h
  obtain ⟨hmem, hid⟩ := List.mem_filter.mp (List.mem_of_getLast? hc)
  exact beq_iff_eq.mp hid ▸ List.mem_map_of_mem hmem

theorem callId_of_useOf? (h : useOf? events callId = some use) : use.callId = callId := by
  obtain ⟨c, _, rfl⟩ := Option.map_eq_some_iff.mp h
  rfl

theorem lastCall?_of_announced (h : announced events' = announced events ++ [c]) (callId : String) :
    lastCall? events' callId = if c.callId = callId then some c else lastCall? events callId := by
  unfold lastCall?
  rw [h, List.filter_append]
  by_cases hid : c.callId = callId <;> simp [hid]

/-- A call announced again is shown as it is announced now. -/
theorem useOf?_of_announced (hcalls : announced events' = announced events ++ [c])
    (hstatus : lastStatus? events' callId = lastStatus? events callId)
    (huse : useOf? events callId = some use) :
    useOf? events' callId =
      some (if use.callId == c.callId then { use with tool := c.tool, input := c.args }
        else use) := by
  obtain ⟨c', hc', rfl⟩ := Option.map_eq_some_iff.mp huse
  unfold useOf?
  rw [lastCall?_of_announced hcalls, hstatus]
  by_cases hid : c.callId = callId
  · rw [if_pos hid, if_pos (beq_iff_eq.mpr hid.symm)]
    rfl
  · rw [if_neg hid, if_neg (mt beq_iff_eq.mp (Ne.symm hid)), hc']
    rfl

/-- An output of a call announced is its status from then on. -/
theorem useOf?_of_output (target : String) (status : ToolStatus)
    (huse : useOf? events callId = some use) :
    useOf? (events ++ [.toolOutput target status]) callId =
      some (if use.callId == target then { use with status := some status } else use) := by
  have hcall : lastCall? (events ++ [.toolOutput target status]) callId =
      lastCall? events callId := by
    unfold lastCall?
    rw [announced_concat]
    exact congrArg _ (congrArg _ (List.append_nil _))
  obtain ⟨c, hc, rfl⟩ := Option.map_eq_some_iff.mp huse
  unfold useOf?
  rw [hcall, lastStatus?_concat (mem_callIds_of_useOf? huse), hc, SiteEvent.statusOf?]
  by_cases hid : target = callId
  · rw [if_pos hid, if_pos (beq_iff_eq.mpr hid.symm)]
    rfl
  · rw [if_neg hid, if_neg (mt beq_iff_eq.mp (Ne.symm hid))]
    rfl

end

/-! ## Distinct ids -/

theorem eraseDups_concat {α : Type} [BEq α] [LawfulBEq α] (xs : List α) (x : α) :
    (xs ++ [x]).eraseDups = if x ∈ xs then xs.eraseDups else xs.eraseDups ++ [x] := by
  rw [List.eraseDups_append, List.removeAll]
  by_cases h : x ∈ xs <;> simp [h, List.eraseDups_cons]

theorem nodup_eraseDups {α : Type} [BEq α] [LawfulBEq α] (xs : List α) : xs.eraseDups.Nodup := by
  induction xs using List.reverseRecOn with
  | nil => exact .nil
  | append_singleton xs x ih =>
    rw [eraseDups_concat]
    split
    · exact ih
    next h =>
      rw [← List.concat_eq_append]
      exact ih.concat fun hmem => h (List.mem_eraseDups.mp hmem)

/-- Where keys are distinct, the first element with a key is the only one. -/
theorem mapFirst_eq_map {α κ : Type} [BEq κ] [LawfulBEq κ] {key : α → κ} {f : α → α} {k : κ}
    {xs : List α} (h : (xs.map key).Nodup) :
    mapFirst (key · == k) f xs = xs.map fun x => if key x == k then f x else x := by
  induction xs with
  | nil => rfl
  | cons x xs ih =>
    obtain ⟨hx, hxs⟩ := List.nodup_cons.mp h
    rw [List.map_cons, mapFirst]
    split
    next hk =>
      have hothers : ∀ y ∈ xs, (if key y == k then f y else y) = y := by
        intro y hy
        refine if_neg fun hyk => hx ?_
        rw [beq_iff_eq] at hk hyk
        exact hk.trans hyk.symm ▸ List.mem_map_of_mem hy
      rw [List.map_congr_left hothers, List.map_id']
    next => rw [ih hxs]

theorem mapFirst_of_forall {α : Type} {p : α → Bool} {f : α → α} {xs : List α}
    (h : ∀ x ∈ xs, p x = false) : mapFirst p f xs = xs := by
  induction xs with
  | nil => rfl
  | cons x xs ih =>
    obtain ⟨hx, hxs⟩ := List.forall_mem_cons.mp h
    rw [mapFirst_cons_of_neg hx, ih hxs]

/-! ## Uses -/

/-- Records a call among the uses. -/
def recordUse (uses : List ToolUse) (c : ToolCall) : List ToolUse :=
  if uses.any (·.callId == c.callId) then
    mapFirst (·.callId == c.callId) (fun use => { use with tool := c.tool, input := c.args }) uses
  else uses ++ [{ callId := c.callId, tool := c.tool, input := c.args, status := none }]

namespace Draft

variable {d : Draft}

/-- The tool uses of a draft, in order. -/
def uses (d : Draft) : List ToolUse := d.items.filterMap Item.toolUse?

theorem any_isUseOf (callId : String) (is : List Item) :
    is.any (isUseOf callId) = (is.filterMap Item.toolUse?).any (·.callId == callId) := by
  rw [List.any_filterMap]
  refine congrArg is.any (funext fun i => ?_)
  cases i <;> rfl

theorem uses_onUse (d : Draft) (callId : String) (change : ToolUse → ToolUse) :
    (d.onUse callId change).uses = mapFirst (·.callId == callId) change d.uses := by
  show (mapFirst (isUseOf callId) (mapUse change) d.items).filterMap Item.toolUse? =
    mapFirst (·.callId == callId) change (d.items.filterMap Item.toolUse?)
  induction d.items with
  | nil => rfl
  | cons i is ih =>
    cases i with
    | toolUse id use =>
      by_cases h : use.callId = callId <;> simp [mapFirst, isUseOf, mapUse, Item.toolUse?, h, ih]
    | _ =>
      rw [mapFirst_cons_of_neg rfl, List.filterMap_cons_none rfl, List.filterMap_cons_none rfl]
      exact ih

theorem uses_recordCall (d : Draft) (c : ToolCall) :
    (d.recordCall c).uses = recordUse d.uses c := by
  unfold recordCall recordUse
  rw [any_isUseOf]
  show Draft.uses (if d.uses.any _ then _ else _) = _
  split
  · exact uses_onUse d _ _
  · exact filterMap_add d _ _

end Draft

/-! ## Uses of calls announced -/

/-- The uses are those of the calls announced, one for each, in the order of the first
announcements. -/
def UsesOf (events : List SiteEvent) (uses : List ToolUse) : Prop :=
  List.Forall₂ (fun callId use => useOf? events callId = some use) (callIds events).eraseDups uses

namespace UsesOf

variable {events events' : List SiteEvent} {e : SiteEvent} {uses : List ToolUse} {d : Draft}

theorem map_callId (h : UsesOf events uses) :
    uses.map ToolUse.callId = (callIds events).eraseDups := by
  rw [← List.forall₂_eq_eq_eq, List.forall₂_map_left_iff]
  exact List.Forall₂.flip (h.imp fun _ _ huse => callId_of_useOf? huse)

theorem any_callId (h : UsesOf events uses) (callId : String) :
    uses.any (·.callId == callId) = true ↔ callId ∈ callIds events := by
  rw [← List.mem_eraseDups, ← h.map_callId]
  simp

/-- Some of the uses change. -/
theorem map (h : UsesOf events uses) {f : ToolUse → ToolUse}
    (hids : (callIds events').eraseDups = (callIds events).eraseDups)
    (hf : ∀ callId use, useOf? events callId = some use → useOf? events' callId = some (f use)) :
    UsesOf events' (uses.map f) := by
  unfold UsesOf
  rw [hids, List.forall₂_map_right_iff]
  exact h.imp hf

/-- A call that is announced is recorded. -/
theorem call (h : UsesOf events uses) {c : ToolCall}
    (hcalls : announced events' = announced events ++ [c])
    (hstatus : ∀ callId, lastStatus? events' callId = lastStatus? events callId) :
    UsesOf events' (recordUse uses c) := by
  have hids : callIds events' = callIds events ++ [c.callId] := by
    unfold callIds
    rw [hcalls, List.map_append]
    rfl
  have hknown := h.any_callId c.callId
  unfold recordUse
  split
  next hany =>
    have hnodup : (uses.map ToolUse.callId).Nodup := h.map_callId ▸ nodup_eraseDups _
    rw [mapFirst_eq_map hnodup]
    refine h.map ?_ fun callId use huse => useOf?_of_announced hcalls (hstatus callId) huse
    rw [hids, eraseDups_concat, if_pos (hknown.mp hany)]
  next hany =>
    have hnew : c.callId ∉ callIds events := mt hknown.mpr hany
    unfold UsesOf
    rw [hids, eraseDups_concat, if_neg hnew, forall₂_concat_iff]
    constructor
    · refine h.imp fun callId use huse => ?_
      have hother : use.callId ≠ c.callId := by
        rw [callId_of_useOf? huse]
        rintro rfl
        exact hnew (mem_callIds_of_useOf? huse)
      rw [useOf?_of_announced hcalls (hstatus callId) huse, if_neg (mt beq_iff_eq.mp hother)]
    · unfold useOf?
      rw [lastCall?_of_announced hcalls, if_pos rfl, hstatus, lastStatus?_of_not_mem hnew]
      rfl

/-- An output is recorded if its call has been announced. -/
theorem output (h : UsesOf events uses) (callId : String) (status : ToolStatus) :
    UsesOf (events ++ [.toolOutput callId status])
      (mapFirst (·.callId == callId) (fun use => { use with status := some status }) uses) := by
  have hnodup : (uses.map ToolUse.callId).Nodup := h.map_callId ▸ nodup_eraseDups _
  rw [mapFirst_eq_map hnodup]
  refine h.map ?_ fun _ _ => useOf?_of_output callId status
  unfold callIds
  rw [announced_concat]
  exact congrArg (fun cs => (cs.map ToolCall.callId).eraseDups) (List.append_nil _)

/-- What neither announces a call nor is an output changes nothing. -/
theorem other (h : UsesOf events uses) (hcalls : e.calls = [])
    (hstatus : ∀ callId, e.statusOf? callId = none) : UsesOf (events ++ [e]) uses := by
  have hannounced : announced (events ++ [e]) = announced events := by
    rw [announced_concat, hcalls, List.append_nil]
  unfold UsesOf callIds
  rw [hannounced]
  refine h.imp fun callId use huse => ?_
  unfold useOf? lastCall?
  rw [hannounced, lastStatus?_concat_of_forall hstatus]
  exact huse

/-- The calls of one event are recorded one by one. -/
theorem calls (h : UsesOf events d.uses) (cs : List ToolCall) :
    UsesOf (events ++ [.toolCall cs]) (cs.foldl Draft.recordCall d).uses := by
  induction cs using List.reverseRecOn with
  | nil => exact h.other rfl fun _ => rfl
  | append_singleton cs c ih =>
    rw [List.foldl_concat, Draft.uses_recordCall]
    refine ih.call ?_ fun callId => ?_
    · rw [announced_concat, announced_concat, List.append_assoc]
      rfl
    · rw [lastStatus?_concat_of_forall fun _ => rfl, lastStatus?_concat_of_forall fun _ => rfl]

/-- An event in the middle of a turn. -/
theorem applySite (h : UsesOf events d.uses) (e : SiteEvent) :
    UsesOf (events ++ [e]) (d.applySite e).uses := by
  have hother : e.calls = [] → (∀ callId, e.statusOf? callId = none) →
      (d.applySite e).uses = d.uses → UsesOf (events ++ [e]) (d.applySite e).uses :=
    fun hcalls hstatus huses => huses ▸ h.other hcalls hstatus
  cases e with
  | toolCall cs => exact h.calls cs
  | toolOutput callId status =>
    show UsesOf _ (d.onUse callId _).uses
    rw [Draft.uses_onUse]
    exact h.output callId status
  | delta words =>
    exact hother rfl (fun _ => rfl) (Draft.filterMap_appendText (fun _ _ => rfl) d words)
  | progress stage _ =>
    exact hother rfl (fun _ => rfl) (Draft.filterMap_setProgress (fun _ _ => rfl) d _)
  | log _ | deployed _ _ =>
    exact hother rfl (fun _ => rfl) ((Draft.filterMap_add d _ _).trans (List.append_nil _))
  | start _ _ | ping _ | done _ | error _ _ => exact hother rfl (fun _ => rfl) rfl

theorem stream (hd : d.items = []) (events : List SiteEvent) :
    UsesOf events (d.stream events).uses := by
  induction events using List.reverseRecOn with
  | nil =>
    show List.Forall₂ _ [] (d.items.filterMap _)
    rw [hd]
    exact .nil
  | append_singleton events e ih =>
    rw [Draft.stream_concat]
    exact ih.applySite e

end UsesOf

/-- An output whose call has not been announced changes nothing. -/
theorem Draft.applySite_toolOutput_of_not_mem {d : Draft} {events : List SiteEvent}
    (h : UsesOf events d.uses) {callId : String} (hnew : callId ∉ callIds events)
    (status : ToolStatus) : d.applySite (.toolOutput callId status) = d := by
  have hany : d.items.any (isUseOf callId) = false := by
    rw [any_isUseOf, Bool.eq_false_iff]
    exact mt (h.any_callId callId).mp hnew
  have hitems : mapFirst (isUseOf callId) (mapUse fun use => { use with status := some status })
      d.items = d.items :=
    mapFirst_of_forall fun i hi => Bool.eq_false_iff.mpr (List.any_eq_false.mp hany i hi)
  show { d with items := mapFirst _ _ d.items } = d
  rw [hitems]

/-! ## Turns -/

namespace Panel

/-- The tool uses of a turn are those of the calls announced: one for each id, in the order of the
first announcements, with what was announced last and the status of the last output since the first
announcement. An output whose call has not been announced could be left out of the stream. -/
theorem toolUses_streamed (p : Panel) (taskId : String) (data : Option Value)
    (events : List SiteEvent) (h : ∀ e ∈ events, e.isMidTurn = true) :
    let start := (p.applySite (.start taskId data)).1
    (∃ e, (start.stream events).activeTurn? = some e ∧
      List.Forall₂ (fun callId use => useOf? events callId = some use) (callIds events).eraseDups
        (e.content.filterMap Item.toolUse?)) ∧
    ∀ before callId status after, events = before ++ .toolOutput callId status :: after →
      callId ∉ callIds before → start.stream events = start.stream (before ++ after) := by
  intro start
  obtain ⟨es, e, hstart⟩ : ∃ es e, start.Drafts es e p.openedDraft := drafts_openTurn p
  refine ⟨⟨_, (hstart.stream h).activeTurn?_eq, UsesOf.stream rfl events⟩, ?_⟩
  rintro before callId status after rfl hnew
  have hrest : ∀ x ∈ before ++ after, x.isMidTurn = true := by
    intro x hx
    refine h x ?_
    rcases List.mem_append.mp hx with hx | hx
    · exact List.mem_append_left _ hx
    · exact List.mem_append_right _ (List.mem_cons_of_mem _ hx)
  have hdraft : p.openedDraft.stream (before ++ .toolOutput callId status :: after) =
      p.openedDraft.stream (before ++ after) := by
    rw [Draft.stream_append, Draft.stream_append]
    show ((p.openedDraft.stream before).applySite _).stream after = _
    rw [Draft.applySite_toolOutput_of_not_mem (UsesOf.stream rfl before) hnew]
  exact (hstart.stream h).eq (hdraft ▸ hstart.stream hrest)

/-- An output that came too early, a call announced again and an output that counts. -/
theorem toolUses_streamed_again :
    let call (callId tool : String) : ToolCall := { callId, tool, args := .null }
    let early := SiteEvent.toolOutput "b" .error
    let rest : List SiteEvent := [.log "l",
      .toolCall [call "b" "bash", call "a" "write", call "b" "read"], .delta "x",
      .toolOutput "a" .error, .toolOutput "a" .success, .toolCall [call "a" "edit"]]
    let start := (applySite { mode := .webCreator } (.start "t" none)).1
    (∀ e ∈ early :: rest, e.isMidTurn = true) ∧
      ((start.stream (early :: rest)).activeTurn?.map fun e => e.content.filterMap Item.toolUse?) =
        some [{ callId := "b", tool := "read", input := .null, status := none },
          { callId := "a", tool := "edit", input := .null, status := some .success }] ∧
      start.stream (early :: rest) = start.stream rest := by
  intro call early rest start
  have h : ∀ e ∈ early :: rest, e.isMidTurn = true := by
    simp [early, rest, SiteEvent.isMidTurn]
  obtain ⟨⟨e, he, huses⟩, hearly⟩ := toolUses_streamed { mode := .webCreator } "t" none _ h
  have hids : (callIds (early :: rest)).eraseDups = ["b", "a"] := rfl
  have hshown : e.content.filterMap Item.toolUse? =
      [{ callId := "b", tool := "read", input := .null, status := none },
        { callId := "a", tool := "edit", input := .null, status := some .success }] := by
    rw [hids] at huses
    generalize e.content.filterMap Item.toolUse? = uses at huses ⊢
    obtain _ | ⟨hb, hrest⟩ := huses
    obtain _ | ⟨ha, hnil⟩ := hrest
    cases hnil
    rw [← Option.some.inj hb, ← Option.some.inj ha]
    rfl
  refine ⟨h, ?_, hearly [] "b" .error rest rfl List.not_mem_nil⟩
  rw [he, ← hshown]
  rfl

end Panel

end PromptStudio
