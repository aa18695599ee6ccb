import PromptStudio.Proofs.Chat.Percent
import PromptStudio.Proofs.Json.ReadBack

/-!
# Transcripts that are stored

Entries are written to JSON and read from it. What is written of an entry is read as that entry
(`Entry.InRange.readsBack`), provided that its percentages are at most 100, as those of all that is
read are (`Entry.inRange_of_decode`), and all that a panel makes. So transcripts survive being
stored (`Panel.entries_read_back`).
-/

namespace PromptStudio

open Json

/-! ## Choices and records -/

theorem CodeAction.readsBack (place : Source.Place) (a : CodeAction) :
    ReadsBack (decode place) encode a := by
  cases a <;> rfl

theorem ToolStatus.readsBack (place : Source.Place) (s : ToolStatus) :
    ReadsBack (decode place) encode s := by
  cases s <;> rfl

theorem Role.readsBack (r : Role) : ReadsBack decode encode r := by
  cases r <;> rfl

theorem Mode.readsBack (m : Mode) : ReadsBack decode encode m := by
  cases m <;> rfl

theorem EntryKind.readsBack (k : EntryKind) : ReadsBack decode encode k := by
  cases k <;> rfl

theorem CodeChange.readsBack (place : Source.Place) (c : CodeChange) :
    ReadsBack (decode place) encode c := by
  refine bind_fields?_record (by simp) fun fs hheld => ?_
  have haction := (CodeAction.readsBack place c.action).need (hheld "type" (by decide))
  have hpath := (readsBack_text c.path).need (hheld "path" (by decide))
  have hcontent := (readsBack_text c.content).orElse (hheld "content" (by decide)) ""
  have hpattern := (hheld "match" (by decide)).maybe (x := c.pattern) readsBack_text nofun
  simp [haction, hpath, hcontent, hpattern]

theorem ToolUse.readsBack (place : Source.Place) (u : ToolUse) :
    ReadsBack (decode place) encode u := by
  refine bind_fields?_record (by simp) fun fs hheld => ?_
  have hcallId := (readsBack_text u.callId).need (hheld "toolUseId" (by decide))
  have htool := (readsBack_text u.tool).need (hheld "name" (by decide))
  have hinput := (readsBack_value u.input).orElse (hheld "input" (by decide)) .null
  have hstatus := (hheld "status" (by decide)).maybe (x := u.status)
    (ToolStatus.readsBack place) nofun
  simp [hcallId, htool, hinput, hstatus]

theorem PreviewLink.readsBack (l : PreviewLink) : ReadsBack decode encode l := by
  have hencode : encode l =
      .record [("url", some (.str l.url)), ("message", some (.str l.message))] := rfl
  unfold ReadsBack
  rw [hencode]
  refine bind_fields?_record (by simp) fun fs hheld => ?_
  have hurl := (readsBack_text l.url).need (hheld "url" (by decide))
  have hmessage := (readsBack_text l.message).orElse (hheld "message" (by decide)) ""
  simp [hurl, hmessage]

/-! ## Items and entries -/

namespace Item

/-- An item of a variant is read back if what it holds beside its id is. -/
theorem readsBack_of_variant {α : Type} (variant : String) {read : Source → Option α}
    {write : α → Json} {make : String → α → Item} {id : String} {x : α}
    (hread : ∀ src : Source, ofVariant? variant src =
      (src.fields? ["id", variant]).bind fun fs => (fs.need "id" Source.text?).bind fun id =>
        (fs.need variant read).bind fun x => some (make id x))
    (hwrite : (make id x).encode =
      .obj [("type", .str variant), ("id", .str id), (variant, write x)])
    (hvariant : variant ≠ "type" ∧ variant ≠ "id") (hx : ReadsBack read write x) :
    ReadsBack decode encode (make id x) := by
  unfold ReadsBack
  rw [hwrite]
  refine bind_tagged?_obj ?_ fun members hshows => ?_
  · simp [hvariant.1.symm, hvariant.2.symm]
  · rw [hread]
    refine hshows.bind_fields? ?_ fun fs hheld => ?_
    · simp [hvariant.1.symm]
    · have hid := (readsBack_text id).need (hheld "id" (by simp))
      have hheld := hheld variant (by simp)
      simp only [lookup_cons, if_neg hvariant.1, if_neg hvariant.2, if_true,
        Option.map_some] at hheld
      simp [hid, hx.need hheld]

theorem readsBack_percent {n : Nat} (h : n ≤ 100) : ReadsBack percent? .nat n := by
  show some (min n 100) = some n
  rw [Nat.min_eq_left h]

theorem InRange.readsBack {i : Item} (h : i.InRange) : ReadsBack decode encode i := by
  cases i with
  | text id words =>
    exact readsBack_of_variant "text" (fun _ => rfl) rfl (by decide) (readsBack_text words)
  | code id change =>
    exact readsBack_of_variant "code" (fun _ => rfl) rfl (by decide) (change.readsBack .tagged)
  | reasoning id words =>
    exact readsBack_of_variant "reasoning" (fun _ => rfl) rfl (by decide) (readsBack_text words)
  | progress id percent =>
    exact readsBack_of_variant "progress" (fun _ => rfl) rfl (by decide) (readsBack_percent h)
  | toolUse id use =>
    exact readsBack_of_variant "toolUse" (fun _ => rfl) rfl (by decide) (use.readsBack .tagged)
  | log id line =>
    exact readsBack_of_variant "log" (fun _ => rfl) rfl (by decide) (readsBack_text line)
  | preview id link =>
    exact readsBack_of_variant "preview" (fun _ => rfl) rfl (by decide) link.readsBack

theorem percentOf_le (n : Number) : percentOf n ≤ 100 := by
  cases n with
  | whole n => exact Nat.min_le_right n 100
  | below n => exact Nat.zero_le 100
  | double x => exact Nat.min_le_right _ 100

theorem percent?_le {src : Source} {n : Nat} (h : percent? src = some n) : n ≤ 100 := by
  cases src with
  | num number =>
    obtain rfl := Option.some.inj h
    exact percentOf_le number
  | _ => cases h

/-- Whatever a percentage is read from, it is brought between 0 and 100. -/
theorem inRange_of_decode {src : Source} {i : Item} (h : decode src = some i) : i.InRange := by
  obtain ⟨⟨variant, fields⟩, _, h⟩ := Option.bind_eq_some_iff.mp h
  unfold ofVariant? at h
  split at h <;>
    simp only [Option.bind_eq_bind, Option.pure_def, Option.bind_eq_some_iff, Option.some.injEq,
      reduceCtorEq] at h
  case h_4 =>
    obtain ⟨fs, _, id, _, percent, hpercent, rfl⟩ := h
    obtain ⟨s, _, hs⟩ := Option.bind_eq_some_iff.mp hpercent
    exact percent?_le hs
  all_goals
    obtain ⟨fs, _, id, _, x, _, rfl⟩ := h
    trivial

end Item

theorem forall_of_list? {α : Type} {read : Source → Option α} {P : α → Prop}
    (hread : ∀ s x, read s = some x → P x) {src : Source} {xs : List α}
    (h : Source.list? read src = some xs) : ∀ x ∈ xs, P x := by
  cases src with
  | arr items =>
    replace h : items.mapM read = some xs := h
    induction items generalizing xs with
    | nil =>
      obtain rfl : [] = xs := Option.some.inj h
      exact fun _ hx => absurd hx List.not_mem_nil
    | cons s ss ih =>
      rw [List.mapM_cons] at h
      obtain ⟨x, hx, h⟩ := Option.bind_eq_some_iff.mp h
      obtain ⟨xs, hxs, h⟩ := Option.bind_eq_some_iff.mp h
      obtain rfl := Option.some.inj h
      exact List.forall_mem_cons.mpr ⟨hread s x hx, ih hxs⟩
  | _ => cases h

namespace Entry

theorem InRange.readsBack {e : Entry} (h : e.InRange) : ReadsBack decode encode e := by
  refine bind_fields?_record (by simp) fun fs hheld => ?_
  have hcontent : ReadsBack (Source.list? Item.decode) (fun is => .arr (is.map Item.encode))
      e.content := readsBack_list fun i hi => (h i hi).readsBack
  have hid := (readsBack_text e.id).need (hheld "id" (by decide))
  have hkind := (hheld "type" (by decide)).maybe (x := e.kind) EntryKind.readsBack nofun
  have hrole := e.role.readsBack.need (hheld "role" (by decide))
  have hcontent := hcontent.orElse (hheld "content" (by decide)) []
  have hmode := e.mode.readsBack.need (hheld "mode" (by decide))
  have hparent := (hheld "parentId" (by decide)).maybe (x := e.parent) readsBack_text nofun
  have herror := (hheld "error" (by decide)).maybe (x := e.error) readsBack_text nofun
  simp [hid, hkind, hrole, hcontent, hmode, hparent, herror]

theorem inRange_of_decode {src : Source} {e : Entry} (h : decode src = some e) : e.InRange := by
  simp only [decode, Option.bind_eq_bind, Option.pure_def, Option.bind_eq_some_iff,
    Option.some.injEq] at h
  obtain ⟨fs, _, id, _, kind, _, role, _, content, hcontent, mode, _, parent, _, error, _, rfl⟩ := h
  show ∀ i ∈ content, i.InRange
  unfold Fields.orElse at hcontent
  split at hcontent
  · exact forall_of_list? (fun _ _ => Item.inRange_of_decode) hcontent
  · obtain rfl := Option.some.inj hcontent
    exact fun _ hi => absurd hi List.not_mem_nil

end Entry

/-- Transcripts can be stored. If every loaded entry was read from some JSON, then every entry of
the transcript is read back from the value it is written as, and shows only percentages up to 100.
And an entry that was read, from whatever JSON, is read back from what it is written as, so that
storing and loading it changes nothing any more. -/
theorem Panel.entries_read_back (mode : Mode) (steps : List Step)
    (h : ∀ entries, .load entries ∈ steps → ∀ e ∈ entries, ∃ src, Entry.decode src = some e) :
    (∀ e ∈ (ofSteps mode steps).entries,
      Entry.decode e.encode.toValue.source = some e ∧
        ∀ id percent, .progress id percent ∈ e.content → percent ≤ 100) ∧
      ∀ (src : Source) (e : Entry), Entry.decode src = some e →
        Entry.decode e.encode.toValue.source = some e := by
  have hrange : (ofSteps mode steps).InRange := by
    refine inRange_ofSteps mode fun entries hload e he => ?_
    obtain ⟨src, hsrc⟩ := h entries hload e he
    exact Entry.inRange_of_decode hsrc
  refine ⟨fun e he => ⟨(hrange e he).readsBack, fun id percent hi => hrange e he _ hi⟩, ?_⟩
  exact fun src e hsrc => (Entry.inRange_of_decode hsrc).readsBack

/-- A reply is loaded whose item is written as a list and shows 250 percent, and a build of an
unknown stage follows. The loaded reply then shows 100 percent, and stays so when stored again. -/
theorem Panel.entries_read_back_excess :
    let src : Source := .obj [("mode", .str "webCreator"), ("id", .str "h"), ("extra", .null),
      ("content", .arr [.arr [.str "progress", .str "i", .num (.whole 250)]]),
      ("role", .obj [("assistant", .null)])]
    let stored : Entry :=
      { id := "h", kind := none, role := .assistant, content := [.progress "i" 100],
        mode := .webCreator, parent := none, error := none }
    let steps : List Step := [.load [stored],
      .input (.event (.site (some (.start "t" none)))),
      .input (.event (.site (some (.progress "packing" ""))))]
    Entry.decode src = some stored ∧
      (∀ entries, .load entries ∈ steps → ∀ e ∈ entries, ∃ src, Entry.decode src = some e) ∧
      (ofSteps .webCreator steps).entries.map Entry.content =
        [[.progress "i" 100], [.progress "wc-2" 0]] ∧
      (∀ e ∈ (ofSteps .webCreator steps).entries, Entry.decode e.encode.toValue.source = some e) ∧
      Entry.decode stored.encode.toValue.source = some stored := by
  intro src stored steps
  have hsrc : Entry.decode src = some stored := rfl
  have hloads : ∀ entries, .load entries ∈ steps → ∀ e ∈ entries,
      ∃ src, Entry.decode src = some e := by
    intro entries hmem e he
    obtain rfl : entries = [stored] := by simpa [steps] using hmem
    obtain rfl := List.mem_singleton.mp he
    exact ⟨src, hsrc⟩
  obtain ⟨hentries, hagain⟩ := entries_read_back .webCreator steps hloads
  exact ⟨hsrc, hloads, by cbv, fun e he => (hentries e he).1, hagain src stored hsrc⟩

end PromptStudio
