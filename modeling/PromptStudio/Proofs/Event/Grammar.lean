import PromptStudio.Event.Build
import PromptStudio.Event.Site
import PromptStudio.Proofs.Json.Fields

/-!
# The grammar of stream events

A frame is an event of a family if its name, without blanks around it, is one of the family's, and
its data is an object with the fields of that variant. `SiteEvent.Fits` and `BuildEvent.Fits` are
the grammars: they say which members an object has to have, or may lack, to be which event.
`events_readBy_grammar` states for both families that just the frames of the grammar are read, as
the event that it gives, and so that nothing but the members of the variant's own fields counts.
-/

namespace PromptStudio

open Json

/-! ## Tool calls -/

/-- The outcome of a tool call, as a text, or as an object with one member that holds nothing. -/
def IsStatus (j : Json) (s : ToolStatus) : Prop :=
  j = .str s.tag ∨ j = .obj [(s.tag, .null)] ∨ j = .obj [(s.tag, .obj [])]

/-- A tool call. -/
def IsCall (j : Json) (c : ToolCall) : Prop :=
  ∃ place, IsRecord ["tool_call_id", "tool_name", "args"] j place ∧
    Required IsText c.callId (place "tool_call_id") ∧ Required IsText c.tool (place "tool_name") ∧
    Defaulted IsValue .null c.args (place "args")

theorem choice?_iff (j : Json) (tag : String) :
    j.source.choice? .tagged = some tag ↔
      j = .str tag ∨ j = .obj [(tag, .null)] ∨ j = .obj [(tag, .obj [])] := by
  cases j with
  | obj members =>
    match members with
    | [] => simp [source, sourceMembers, Source.choice?]
    | [(key, v)] =>
      cases v with
      | obj inner =>
        cases inner with
        | nil => simp [source, sourceMembers, Source.choice?]
        | cons m _ =>
          obtain ⟨_, _⟩ := m
          simp [source, sourceMembers, Source.choice?]
      | _ => simp [source, sourceMembers, Source.choice?]
    | (_, _) :: (_, _) :: _ => simp [source, sourceMembers, Source.choice?]
  | _ => simp [source, Source.choice?]

theorem ofTag?_iff (tag : String) (s : ToolStatus) :
    ToolStatus.ofTag? tag = some s ↔ tag = s.tag := by
  unfold ToolStatus.ofTag?
  split <;> cases s <;> simp_all [ToolStatus.tag]

theorem reads_status : Reads (ToolStatus.decode .tagged) IsStatus := by
  intro j _ s
  unfold ToolStatus.decode IsStatus
  rw [Option.bind_eq_some_iff, ← choice?_iff]
  constructor
  · rintro ⟨tag, htag, hs⟩
    rw [htag, (ofTag?_iff tag s).mp hs]
  · intro h
    exact ⟨s.tag, h, (ofTag?_iff s.tag s).mpr rfl⟩

theorem reads_call : Reads ToolCall.decode IsCall := by
  intro j hj c
  refine bind_fields?_iff hj fun fs place hheld => ?_
  have hid := need_iff reads_text (hheld "tool_call_id" (by decide))
  have htool := need_iff reads_text (hheld "tool_name" (by decide))
  have hargs := orElse_iff reads_value (hheld "args" (by decide)) .null
  obtain ⟨callId, tool, args⟩ := c
  simp only [Option.bind_eq_bind, Option.pure_def, Option.bind_eq_some_iff, Option.some.injEq, hid,
    htool, hargs]
  simp

/-! ## Frames -/

/-- The object that is the data of a frame; blank data stand for an empty object. -/
def Frame.object? (f : Frame) : Option Value :=
  if f.data.toList.all Text.isBlank then some (Value.ofMembers [])
  else (Value.ofText? f.data).filter fun v => v.json matches .obj _

theorem Frame.shows_members?_of_object? {f : Frame} {o : Value} (h : f.object? = some o) :
    ∃ members, f.members? = some members ∧ Shows members fun name => o.json.member? name := by
  unfold Frame.object? at h
  unfold Frame.members?
  split at h
  case isTrue hblank =>
    cases h
    have hempty : (Value.ofMembers []).json = .obj [] := rfl
    exact ⟨[], if_pos hblank, shows_members hempty⟩
  case isFalse hblank =>
    obtain ⟨hread, hobj⟩ := Option.filter_eq_some_iff.mp h
    obtain ⟨members, ho⟩ : ∃ members, o.json = .obj members := by
      cases hj : o.json with
      | obj members => exact ⟨members, rfl⟩
      | _ => simp [hj] at hobj
    refine ⟨_, ?_, shows_members ho⟩
    rw [if_neg hblank, hread, Option.map_some, Value.source, ho, source]

theorem Frame.members?_eq_none_of_object? {f : Frame} (h : f.object? = none) :
    f.members? = none := by
  unfold Frame.object? at h
  unfold Frame.members?
  split at h
  case isTrue => cases h
  case isFalse hblank =>
    rw [if_neg hblank]
    cases hread : Value.ofText? f.data with
    | none => rfl
    | some v =>
      rw [hread, Option.filter_eq_none_iff] at h
      rw [Option.map_some, Value.source]
      cases hj : v.json with
      | obj members => exact absurd (by rw [hj]) (h v rfl)
      | _ => rfl

/-! ## Families -/

open EventFamily

/-- The frame names the variant of the event, and its data is an object that fits it. -/
def Denotes {ε : Type} [EventFamily ε] (Fits : ε → (String → Option Json) → Prop) (f : Frame)
    (e : ε) : Prop :=
  Text.trim f.event ∈ vocabulary ε ∧ name e = Text.trim f.event ∧
    ∃ o, f.object? = some o ∧ Fits e fun key => o.json.member? key

/-- The events of the family `ε` are read by the grammar `Fits`, whose variants have fields in the
members `memberNames`. -/
structure ReadBy (ε : Type) [EventFamily ε] (Fits : ε → (String → Option Json) → Prop)
    (memberNames : String → List String) : Prop where
  /-- Just the frames of the grammar are read. -/
  ofFrame?_iff : ∀ (f : Frame) (e : ε), ofFrame? f = some e ↔ Denotes Fits f e
  /-- Only the members of the variant's own fields count. -/
  ofFrame?_congr : ∀ (f f' : Frame) (o o' : Value), Text.trim f.event = Text.trim f'.event →
    f.object? = some o → f'.object? = some o' →
    (∀ key ∈ memberNames (Text.trim f.event), o.json.member? key = o'.json.member? key) →
    (ofFrame? f : Option ε) = ofFrame? f'
  /-- The member `type` is none of them. -/
  type_notMem : ∀ variant, "type" ∉ memberNames variant

section

variable {ε : Type} [EventFamily ε] {Fits : ε → (String → Option Json) → Prop}
  {memberNames : String → List String}

theorem ofFrame?_iff_denotes
    (hread : ∀ variant ∈ vocabulary ε, ∀ members place, Shows members place → ∀ e,
      ofVariant? variant (.obj (modernize ε variant members)) = some e ↔
        name e = variant ∧ Fits e place)
    (f : Frame) (e : ε) : ofFrame? f = some e ↔ Denotes Fits f e := by
  unfold ofFrame? Denotes
  by_cases hvariant : Text.trim f.event ∈ vocabulary ε
  · rw [if_pos (List.contains_iff_mem.mpr hvariant)]
    cases ho : f.object? with
    | none => simp [Frame.members?_eq_none_of_object? ho]
    | some o =>
      obtain ⟨members, hmembers, hshows⟩ := Frame.shows_members?_of_object? ho
      rw [hmembers, Option.bind_some, hread _ hvariant members _ hshows e]
      simp [hvariant]
  · rw [if_neg (List.contains_iff_mem.not.mpr hvariant)]
    simp [hvariant]

/-- A family is read by a grammar if its variants are. -/
theorem ReadBy.of_ofVariant?
    (hread : ∀ variant ∈ vocabulary ε, ∀ members place, Shows members place → ∀ e,
      ofVariant? variant (.obj (modernize ε variant members)) = some e ↔
        name e = variant ∧ Fits e place)
    (hfits : ∀ (e : ε) (o o' : String → Option Json),
      (∀ key ∈ memberNames (name e), o key = o' key) → Fits e o → Fits e o')
    (htype : ∀ variant, "type" ∉ memberNames variant) : ReadBy ε Fits memberNames := by
  refine ⟨ofFrame?_iff_denotes hread, ?_, htype⟩
  intro f f' o o' hevent ho ho' hagree
  refine Option.ext fun e => ?_
  rw [ofFrame?_iff_denotes hread, ofFrame?_iff_denotes hread, Denotes, Denotes, ← hevent, ho, ho']
  refine and_congr_right fun _ => and_congr_right fun hname => ?_
  rw [← hname] at hagree
  simp only [Option.some.injEq, exists_eq_left']
  exact ⟨hfits e _ _ hagree, hfits e _ _ fun key hkey => (hagree key hkey).symm⟩

end

/-! ## Events of a site being built -/

namespace SiteEvent

/-- The object whose members `o` tells is this event. An older backend's name of the task counts
only where the newer one is missing. -/
def Fits : SiteEvent → (String → Option Json) → Prop
  | .start taskId data, o =>
    Required IsText taskId ((o "taskId").or (o "task_id")) ∧ Nullable IsValue data (o "data")
  | .delta content, o => Required IsText content (o "content")
  | .toolCall calls, o => Required (IsListOf IsCall) calls (o "tool_calls")
  | .toolOutput callId status, o =>
    Required IsText callId (o "tool_call_id") ∧ Required IsStatus status (o "status")
  | .progress stage message, o =>
    Required IsText stage (o "stage") ∧ Defaulted IsText "" message (o "message")
  | .log content, o => Required IsText content (o "content")
  | .deployed previewUrl message, o =>
    Required IsText previewUrl (o "preview_url") ∧ Defaulted IsText "" message (o "message")
  | .ping timestamp, o => Required IsInt64 timestamp (o "timestamp")
  | .done data, o => Nullable IsValue data (o "data")
  | .error reason message, o =>
    Nullable IsText reason (o "reason") ∧ Nullable IsText message (o "message")

/-- The members that hold the fields of a variant. -/
def memberNames : String → List String
  | "start" => ["taskId", "task_id", "data"]
  | "delta" | "log" => ["content"]
  | "tool_call" => ["tool_calls"]
  | "tool_output" => ["tool_call_id", "status"]
  | "progress" => ["stage", "message"]
  | "deploy_result" => ["preview_url", "message"]
  | "ping" => ["timestamp"]
  | "done" => ["data"]
  | "error" => ["reason", "message"]
  | _ => []

theorem fits_congr (e : SiteEvent) (o o' : String → Option Json)
    (h : ∀ key ∈ memberNames e.name, o key = o' key) (hfits : e.Fits o) : e.Fits o' := by
  cases e <;> simp_all [memberNames, name, Fits]

theorem type_notMem_memberNames (variant : String) : "type" ∉ memberNames variant := by
  unfold memberNames
  split <;> decide

variable {members : List (String × Source)} {place : String → Option Json}

theorem lookup_modernize_start (key : String) :
    (modernize "start" members).lookup key =
      if key = "taskId" then (members.lookup "taskId").or (members.lookup "task_id")
      else if key = "task_id" then none
      else members.lookup key := by
  rw [modernize, if_pos rfl]
  by_cases hkey : key = "taskId"
  · subst hkey
    cases htask_id : members.lookup "task_id" <;> cases htaskId : members.lookup "taskId" <;>
      simp [List.lookup_append, lookup_filter_bne, htaskId]
  · split <;>
      simp [List.lookup_append, List.lookup_cons, lookup_filter_bne, hkey, beq_false_of_ne]

theorem nodup_modernize_start (h : (members.map Prod.fst).Nodup) :
    ((modernize "start" members).map Prod.fst).Nodup := by
  have hrest : ((members.filter (·.1 != "task_id")).map Prod.fst).Nodup :=
    (List.filter_sublist.map Prod.fst).nodup h
  rw [modernize, if_pos rfl]
  split
  case h_1 id htask_id htaskId =>
    have hnew : "taskId" ∉ (members.filter (·.1 != "task_id")).map Prod.fst := by
      refine lookup_eq_none_iff.mp ?_
      rw [lookup_filter_bne, htaskId, ite_self]
    rw [List.map_append, List.nodup_append]
    refine ⟨hrest, List.pairwise_singleton _ _, ?_⟩
    rintro key hkey _ hnewKey rfl
    cases List.mem_singleton.mp hnewKey
    exact hnew hkey
  case h_2 => exact hrest

/-- What stands in the places of a start event once the older name of the task is replaced. -/
def modern (place : String → Option Json) (key : String) : Option Json :=
  if key = "taskId" then (place "taskId").or (place "task_id")
  else if key = "task_id" then none
  else place key

theorem shows_modernize_start (h : Shows members place) :
    Shows (modernize "start" members) (modern place) := by
  refine ⟨nodup_modernize_start h.nodup, fun key hkey => ?_⟩
  have htaskId := h.held "taskId" (by decide)
  have htask_id := h.held "task_id" (by decide)
  rw [Held, lookup_modernize_start, modern]
  split
  · rw [htaskId.1, htask_id.1, Option.map_or]
    refine ⟨rfl, fun j hj => ?_⟩
    rcases Option.or_eq_some_iff.mp hj with hj | ⟨-, hj⟩
    · exact htaskId.2 j hj
    · exact htask_id.2 j hj
  split
  · simp
  · exact h.held key hkey

theorem ofVariant?_start_iff (h : Shows members place) (e : SiteEvent) :
    ofVariant? "start" (.obj (modernize "start" members)) = some e ↔
      e.name = "start" ∧ e.Fits place := by
  refine (shows_modernize_start h).bind_fields?_iff (by decide) fun fs hheld => ?_
  have htask := need_iff reads_text (hheld "taskId" (by decide))
  have hdata := maybeValue_iff (hheld "data" (by decide))
  cases e <;> simp [Option.bind_eq_some_iff, htask, hdata, name, Fits, modern]

theorem ofVariant?_iff (h : Shows members place) {variant : String}
    (hvariant : variant ∈ vocabulary) (e : SiteEvent) :
    ofVariant? variant (.obj (modernize variant members)) = some e ↔
      e.name = variant ∧ e.Fits place := by
  rcases eq_or_ne variant "start" with rfl | hstart
  · exact ofVariant?_start_iff h e
  rw [modernize, if_neg hstart]
  simp only [vocabulary, List.mem_cons, List.not_mem_nil, or_false, hstart, false_or] at hvariant
  rcases hvariant with rfl | rfl | rfl | rfl | rfl | rfl | rfl | rfl | rfl <;>
    refine h.bind_fields?_iff (by decide) fun fs hheld => ?_
  · have hcontent := need_iff reads_text (hheld "content" (by decide))
    cases e <;> simp [Option.bind_eq_some_iff, hcontent, name, Fits]
  · have hcalls := need_iff (reads_list reads_call) (hheld "tool_calls" (by decide))
    cases e <;> simp [Option.bind_eq_some_iff, hcalls, name, Fits]
  · have hid := need_iff reads_text (hheld "tool_call_id" (by decide))
    have hstatus := need_iff reads_status (hheld "status" (by decide))
    cases e <;> simp [Option.bind_eq_some_iff, hid, hstatus, name, Fits]
  · have hstage := need_iff reads_text (hheld "stage" (by decide))
    have hmessage := orElse_iff reads_text (hheld "message" (by decide)) ""
    cases e <;> simp [Option.bind_eq_some_iff, hstage, hmessage, name, Fits]
  · have hcontent := need_iff reads_text (hheld "content" (by decide))
    cases e <;> simp [Option.bind_eq_some_iff, hcontent, name, Fits]
  · have hurl := need_iff reads_text (hheld "preview_url" (by decide))
    have hmessage := orElse_iff reads_text (hheld "message" (by decide)) ""
    cases e <;> simp [Option.bind_eq_some_iff, hurl, hmessage, name, Fits]
  · have htimestamp := need_iff reads_int64 (hheld "timestamp" (by decide))
    cases e <;> simp [Option.bind_eq_some_iff, htimestamp, name, Fits]
  · have hdata := maybeValue_iff (hheld "data" (by decide))
    cases e <;> simp [Option.bind_eq_some_iff, hdata, name, Fits]
  · have hreason := maybe_iff reads_text (hheld "reason" (by decide))
    have hmessage := maybe_iff reads_text (hheld "message" (by decide))
    cases e <;> simp [Option.bind_eq_some_iff, hreason, hmessage, name, Fits]

end SiteEvent

/-! ## Events of a workflow being built -/

namespace BuildEvent

/-- The object whose members `o` tells is this event. -/
def Fits : BuildEvent → (String → Option Json) → Prop
  | .start data, o => Defaulted IsValue .null data (o "data")
  | .phase step message, o =>
    Required IsText step (o "phase") ∧ Nullable IsText message (o "message")
  | .ping timestamp, o => Required IsInt64 timestamp (o "timestamp")
  | .done data, o => Nullable IsValue data (o "data")
  | .error message reason code, o =>
    Nullable IsText message (o "message") ∧ Nullable IsText reason (o "reason") ∧
      Nullable IsText code (o "code")

/-- The members that hold the fields of a variant. -/
def memberNames : String → List String
  | "start" | "done" => ["data"]
  | "phase" => ["phase", "message"]
  | "ping" => ["timestamp"]
  | "error" => ["message", "reason", "code"]
  | _ => []

theorem fits_congr (e : BuildEvent) (o o' : String → Option Json)
    (h : ∀ key ∈ memberNames e.name, o key = o' key) (hfits : e.Fits o) : e.Fits o' := by
  cases e <;> simp_all [memberNames, name, Fits]

theorem type_notMem_memberNames (variant : String) : "type" ∉ memberNames variant := by
  unfold memberNames
  split <;> decide

variable {members : List (String × Source)} {place : String → Option Json}

theorem ofVariant?_iff (h : Shows members place) {variant : String}
    (hvariant : variant ∈ vocabulary) (e : BuildEvent) :
    ofVariant? variant (.obj members) = some e ↔
      e.name = variant ∧ e.Fits place := by
  simp only [vocabulary, List.mem_cons, List.not_mem_nil, or_false] at hvariant
  rcases hvariant with rfl | rfl | rfl | rfl | rfl <;>
    refine h.bind_fields?_iff (by decide) fun fs hheld => ?_
  · have hdata := orElse_iff reads_value (hheld "data" (by decide)) .null
    cases e <;> simp [Option.bind_eq_some_iff, hdata, name, Fits]
  · have hstep := need_iff reads_text (hheld "phase" (by decide))
    have hmessage := maybe_iff reads_text (hheld "message" (by decide))
    cases e <;> simp [Option.bind_eq_some_iff, hstep, hmessage, name, Fits]
  · have htimestamp := need_iff reads_int64 (hheld "timestamp" (by decide))
    cases e <;> simp [Option.bind_eq_some_iff, htimestamp, name, Fits]
  · have hdata := maybeValue_iff (hheld "data" (by decide))
    cases e <;> simp [Option.bind_eq_some_iff, hdata, name, Fits]
  · have hmessage := maybe_iff reads_text (hheld "message" (by decide))
    have hreason := maybe_iff reads_text (hheld "reason" (by decide))
    have hcode := maybe_iff reads_text (hheld "code" (by decide))
    cases e <;> simp [Option.bind_eq_some_iff, hmessage, hreason, hcode, name, Fits]

end BuildEvent

/-- Both families of events are read by their grammars. -/
theorem events_readBy_grammar :
    ReadBy SiteEvent SiteEvent.Fits SiteEvent.memberNames ∧
      ReadBy BuildEvent BuildEvent.Fits BuildEvent.memberNames := by
  refine ⟨ReadBy.of_ofVariant? ?_ SiteEvent.fits_congr SiteEvent.type_notMem_memberNames,
    ReadBy.of_ofVariant? ?_ BuildEvent.fits_congr BuildEvent.type_notMem_memberNames⟩
  · exact fun variant hvariant members place h e => SiteEvent.ofVariant?_iff h hvariant e
  · exact fun variant hvariant members place h e => BuildEvent.ofVariant?_iff h hvariant e

end PromptStudio
