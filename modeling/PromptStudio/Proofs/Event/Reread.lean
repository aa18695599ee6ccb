import Mathlib
import PromptStudio.Proofs.Event.Grammar
import PromptStudio.Proofs.Json.Blank
import PromptStudio.Proofs.Json.ReadBack

/-!
# Events that are written and read again

An event that was read from some object is written as an object that fits it as well
(`SiteEvent.Fits.encode`, `BuildEvent.Fits.encode`). This is so only of events that were read: an
optional untyped field may hold null, which is written, but would be read as a missing one. So a
frame that is named after an event that was read, and whose data is any text of the JSON written of
it, is that event again (`events_read_again`).
-/

namespace PromptStudio

open Json EventFamily

/-! ## Places of written fields -/

@[simp] theorem sorted_comp_json : sorted ∘ Value.json = Value.json := funext sorted_json

@[simp] theorem sorted_comp_str : sorted ∘ str = str := funext sorted_str

@[simp] theorem required_text (s : String) : Required IsText s (some (.str s)) := ⟨_, rfl, rfl⟩

@[simp] theorem defaulted_text (default s : String) :
    Defaulted IsText default s (some (.str s)) := rfl

@[simp] theorem nullable_text (s : Option String) : Nullable IsText s (s.map .str) := by
  cases s with
  | none => rfl
  | some s => exact ⟨s, rfl, rfl⟩

@[simp] theorem nullable_textOrNull (s : Option String) :
    Nullable IsText s (some (textOrNull s).sorted) := by
  cases s with
  | none => rfl
  | some s => exact ⟨s, rfl, rfl⟩

@[simp] theorem defaulted_value (default v : Value) :
    Defaulted IsValue default v (some v.json) := rfl

@[simp] theorem required_status (s : ToolStatus) :
    Required IsStatus s (some s.encode.sorted) := ⟨_, rfl, .inl rfl⟩

theorem isCall_encode (c : ToolCall) : IsCall c.encode.sorted c := by
  have hplace : ∀ key, c.encode.sorted.member? key = _ := member?_sorted_obj (by simp)
  refine ⟨(c.encode.sorted.member? ·), .inl ⟨_, rfl, rfl⟩, ?_⟩
  simp [hplace, lookup_cons]

@[simp] theorem required_calls (calls : List ToolCall) :
    Required (IsListOf IsCall) calls (some (arr (calls.map ToolCall.encode)).sorted) := by
  refine ⟨_, rfl, sortedItems (calls.map ToolCall.encode), rfl, ?_⟩
  rw [sortedItems_eq_map, List.map_map, List.forall₂_map_left_iff, List.forall₂_same]
  exact fun c _ => isCall_encode c

theorem required_int64 {n : Int} {place : Option Json} (h : Required IsInt64 n place) :
    Required IsInt64 n (some (.int n)) := by
  obtain ⟨j, _, _, hrange⟩ := h
  exact ⟨_, rfl, rfl, hrange⟩

/-- An optional untyped field that was read does not hold null. -/
theorem nullable_value {x : Option Value} {place : Option Json} (h : Nullable IsValue x place) :
    Nullable IsValue x (x.map Value.json) := by
  cases x with
  | none => rfl
  | some v =>
    unfold Nullable at h
    split at h
    · cases h
    · cases h
    case h_3 j hj =>
      obtain ⟨_, ⟨⟩, rfl⟩ := h
      exact (nullable_some hj).mpr ⟨v, rfl, rfl⟩

/-! ## Written events -/

/-- Members that are written of an event, beside its tag. -/
def Written {ε : Type} [EventFamily ε] (e : ε) (place : String → Option Json) : Prop :=
  ∀ key, key ≠ "type" → place key = (encode e).sorted.member? key

/-- The tag is not among the fields, so it does not matter to them whether it is written. -/
theorem fits_of_written {ε : Type} [EventFamily ε] {Fits : ε → (String → Option Json) → Prop}
    {memberNames : String → List String}
    (hcongr : ∀ (e : ε) (o o' : String → Option Json),
      (∀ key ∈ memberNames (name e), o key = o' key) → Fits e o → Fits e o')
    (htype : ∀ variant, "type" ∉ memberNames variant) {e : ε} {written : String → Option Json}
    (hwritten : Written e written) (h : Fits e fun key => (encode e).sorted.member? key) :
    Fits e written := by
  refine hcongr e _ written (fun key hkey => ?_) h
  have hne : key ≠ "type" := fun heq => htype _ (heq ▸ hkey)
  exact (hwritten key hne).symm

namespace SiteEvent

theorem exists_record (e : SiteEvent) :
    ∃ ms, e.encode = record ms ∧ (ms.map Prod.fst).Nodup := by
  cases e <;> exact ⟨_, rfl, by simp⟩

/-- What is written of an event that was read fits it again. -/
theorem Fits.encode {e : SiteEvent} {place : String → Option Json} (h : e.Fits place) :
    e.Fits fun key => e.encode.sorted.member? key := by
  cases e with
  | start taskId data =>
    have hdata := nullable_value h.2
    simp [SiteEvent.encode, Fits, member?_sorted_record, lookup_cons, hdata]
  | ping timestamp =>
    have htimestamp := required_int64 h
    simp [SiteEvent.encode, Fits, member?_sorted_record, lookup_cons, htimestamp]
  | done data =>
    have hdata := nullable_value h
    simp [SiteEvent.encode, Fits, member?_sorted_record, lookup_cons, hdata]
  | _ => simp [SiteEvent.encode, Fits, member?_sorted_record, lookup_cons]

theorem Fits.again {e : SiteEvent} {place written : String → Option Json} (h : e.Fits place)
    (hwritten : Written e written) : e.Fits written :=
  fits_of_written fits_congr type_notMem_memberNames hwritten h.encode

end SiteEvent

namespace BuildEvent

theorem exists_record (e : BuildEvent) :
    ∃ ms, e.encode = record ms ∧ (ms.map Prod.fst).Nodup := by
  cases e <;> exact ⟨_, rfl, by simp⟩

/-- What is written of an event that was read fits it again. -/
theorem Fits.encode {e : BuildEvent} {place : String → Option Json} (h : e.Fits place) :
    e.Fits fun key => e.encode.sorted.member? key := by
  cases e with
  | ping timestamp =>
    have htimestamp := required_int64 h
    simp [BuildEvent.encode, Fits, member?_sorted_record, lookup_cons, htimestamp]
  | done data =>
    have hdata := nullable_value h
    simp [BuildEvent.encode, Fits, member?_sorted_record, lookup_cons, hdata]
  | _ => simp [BuildEvent.encode, Fits, member?_sorted_record, lookup_cons]

theorem Fits.again {e : BuildEvent} {place written : String → Option Json} (h : e.Fits place)
    (hwritten : Written e written) : e.Fits written :=
  fits_of_written fits_congr type_notMem_memberNames hwritten h.encode

end BuildEvent

/-! ## Frames of what is written -/

section

variable {ε : Type} [EventFamily ε]

/-- The text is of the JSON that is written of the event, with its tag or without. -/
def Carries (text : String) (e : ε) : Prop :=
  Value.ofText? text = some (encode e).toValue ∨
    Value.ofText? text = some (encode e).untagged.toValue

/-- The frame is read as the event, and so ends the stream, keeps it alive and fails as the event
does. -/
def ReadAs (f : Frame) (e : ε) : Prop :=
  ∃ again : ε, ofFrame? f = some again ∧ again = e ∧ isTerminal again = isTerminal e ∧
    isKeepalive again = isKeepalive e ∧ failure? again = failure? e

theorem Frame.object?_of_ofText? {text : String} {v : Value} (h : Value.ofText? text = some v)
    {members : List (String × Json)} (hv : v.json = .obj members) (event : String)
    (id : Option String) : Frame.object? ⟨event, text, id⟩ = some v := by
  unfold Frame.object?
  rw [if_neg (not_blank_of_ofText? h), h, Option.filter_some, hv]
  rfl

theorem exists_object?_of_carries {text : String} {e : ε} (h : Carries text e)
    (hrecord : ∃ ms, encode e = record ms ∧ (ms.map Prod.fst).Nodup) (event : String)
    (id : Option String) :
    ∃ o, Frame.object? ⟨event, text, id⟩ = some o ∧ Written e fun key => o.json.member? key := by
  obtain ⟨ms, hms, hnodup⟩ := hrecord
  rcases h with htext | htext
  · refine ⟨_, Frame.object?_of_ofText? htext (by rw [json_toValue, hms]; rfl) event id, ?_⟩
    exact fun key _ => rfl
  · refine ⟨_, Frame.object?_of_ofText? htext (by rw [json_toValue, hms]; rfl) event id, ?_⟩
    intro key hkey
    rw [json_toValue, hms]
    exact member?_sorted_untagged hnodup hkey

/-- Events of a family are read again if what is written of them fits again. -/
theorem readAs_of_fits {Fits : ε → (String → Option Json) → Prop}
    (hiff : ∀ (f : Frame) (e : ε), ofFrame? f = some e ↔ Denotes Fits f e)
    (htrim : ∀ variant ∈ vocabulary ε, Text.trim variant = variant)
    (hrecord : ∀ e : ε, ∃ ms, encode e = record ms ∧ (ms.map Prod.fst).Nodup)
    (hagain : ∀ (e : ε) (place written : String → Option Json), Fits e place → Written e written →
      Fits e written)
    {f : Frame} {e : ε} (h : ofFrame? f = some e) {text : String} (htext : Carries text e)
    (id : Option String) : ReadAs ⟨name e, text, id⟩ e := by
  obtain ⟨hvariant, hname, o, _, hfits⟩ := (hiff f e).mp h
  rw [← hname] at hvariant
  have htrimmed : Text.trim (name e) = name e := htrim _ hvariant
  obtain ⟨o', ho', hwritten⟩ := exists_object?_of_carries htext (hrecord e) (name e) id
  refine ⟨e, (hiff _ e).mpr ⟨?_, htrimmed.symm, o', ho', ?_⟩, rfl, rfl, rfl, rfl⟩
  · exact htrimmed.symm ▸ hvariant
  · exact hagain e _ _ hfits hwritten

end

/-- Of both families, an event that was read from a frame is read again from any frame that has its
name and carries what is written of it. -/
theorem events_read_again :
    (∀ (f : Frame) (e : SiteEvent), ofFrame? f = some e → ∀ text, Carries text e → ∀ id,
      ReadAs ⟨e.name, text, id⟩ e) ∧
      ∀ (f : Frame) (e : BuildEvent), ofFrame? f = some e → ∀ text, Carries text e → ∀ id,
        ReadAs ⟨e.name, text, id⟩ e := by
  have hsite : ∀ (f : Frame) (e : SiteEvent), ofFrame? f = some e ↔ Denotes SiteEvent.Fits f e :=
    ofFrame?_iff_denotes fun _ hvariant _ _ hshows e => SiteEvent.ofVariant?_iff hshows hvariant e
  have hbuild : ∀ (f : Frame) (e : BuildEvent),
      ofFrame? f = some e ↔ Denotes BuildEvent.Fits f e :=
    ofFrame?_iff_denotes fun _ hvariant _ _ hshows e => BuildEvent.ofVariant?_iff hshows hvariant e
  constructor
  · intro f e h text htext id
    exact readAs_of_fits hsite (by decide) SiteEvent.exists_record
      (fun _ _ _ => SiteEvent.Fits.again) h htext id
  · intro f e h text htext id
    exact readAs_of_fits hbuild (by decide) BuildEvent.exists_record
      (fun _ _ _ => BuildEvent.Fits.again) h htext id

/-- A start event with the older name of the task and data that are null is written with the newer
name and without data. An error event leaves out a reason that is null, and then its tag is all. -/
theorem events_read_again_null :
    let start : Frame := ⟨" start", "\x7b\"task_id\":\"t\",\"data\":null\x7d", none⟩
    let again := "\x7b\"taskId\":\"t\"\x7d"
    let error : Frame := ⟨"error", "\x7b\"reason\":null\x7d", some "1"⟩
    let tagged := "\x7b\"type\":\"error\"\x7d"
    (ofFrame? start = some (SiteEvent.start "t" none) ∧ Carries again (SiteEvent.start "t" none) ∧
        ReadAs ⟨"start", again, none⟩ (SiteEvent.start "t" none)) ∧
      ofFrame? error = some (BuildEvent.error none none none) ∧
        Carries tagged (BuildEvent.error none none none) ∧
        ReadAs ⟨"error", tagged, some "2"⟩ (BuildEvent.error none none none) := by
  intro start again error tagged
  have hstart : Source.ofText start.data =
      some (.obj [("task_id", .str "t"), ("data", .null)]) := by cbv
  have hagain : Source.ofText again = some (.obj [("taskId", .str "t")]) := by cbv
  have herror : Source.ofText error.data = some (.obj [("reason", .null)]) := by cbv
  have htagged : Source.ofText tagged = some (.obj [("type", .str "error")]) := by cbv
  have hsite : ofFrame? start = some (SiteEvent.start "t" none) := by
    have hname : Text.trim start.event = "start" := by decide
    rw [ofFrame?, hname, if_pos (by decide), Frame.members?, if_neg (by decide), Value.ofText?,
      hstart]
    rfl
  have hbuild : ofFrame? error = some (BuildEvent.error none none none) := by
    have hname : Text.trim error.event = "error" := by decide
    rw [ofFrame?, hname, if_pos (by decide), Frame.members?, if_neg (by decide), Value.ofText?,
      herror]
    rfl
  have hcarries : Carries again (SiteEvent.start "t" none) := by
    right
    rw [Value.ofText?, hagain]
    rfl
  have hcarries' : Carries tagged (BuildEvent.error none none none) := by
    left
    rw [Value.ofText?, htagged]
    rfl
  exact ⟨⟨hsite, hcarries, events_read_again.1 _ _ hsite _ hcarries none⟩, hbuild, hcarries',
    events_read_again.2 _ _ hbuild _ hcarries' (some "2")⟩

end PromptStudio
