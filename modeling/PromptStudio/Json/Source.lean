import PromptStudio.Json.Basic

/-!
# JSON as it is written

`Source` is JSON text with its repeated members kept, and with the parts marked that are well formed
but have no value: a container nested too deeply, a number no double can hold, text with half of a
surrogate pair. Such a part is harmless where it is skipped and an error where it is read.
`Source.value?` reads a source as an untyped value, the last of several members of one name
winning, and `Json.source` writes a value back; on ordered values the two are inverse.
-/

namespace PromptStudio

/-- JSON as it is written. -/
inductive Source
  | null
  | bool (b : Bool)
  | num (n : Number)
  | str (s : String)
  | arr (items : List Source)
  | obj (members : List (String × Source))
  | unreadable

instance : Inhabited Source := ⟨.null⟩

namespace Source

mutual

/-- The value, unless some part of it is unreadable. -/
def json? : Source → Option Json
  | .null => some .null
  | .bool b => some (.bool b)
  | .num n => some (.num n)
  | .str s => some (.str s)
  | .arr items => (items? items).map .arr
  | .obj members => (members? members).map fun ms => .obj (Json.sortMembers ms)
  | .unreadable => none

/-- The values of items. -/
def items? : List Source → Option (List Json)
  | [] => some []
  | s :: ss =>
    match json? s, items? ss with
    | some j, some js => some (j :: js)
    | _, _ => none

/-- The values of members. -/
def members? : List (String × Source) → Option (List (String × Json))
  | [] => some []
  | (name, s) :: ss =>
    match json? s, members? ss with
    | some j, some ms => some ((name, j) :: ms)
    | _, _ => none

end

/-- No part is unreadable. -/
def isReadable (s : Source) : Bool := s.json?.isSome

mutual

theorem ordered_of_json? : (s : Source) → {j : Json} → s.json? = some j → j.Ordered
  | .null, _, h => by cases h; trivial
  | .bool _, _, h => by cases h; trivial
  | .num _, _, h => by cases h; trivial
  | .str _, _, h => by cases h; trivial
  | .unreadable, _, h => by cases h
  | .arr items, _, h => by
    obtain ⟨js, hjs, rfl⟩ := Option.map_eq_some_iff.1 h
    exact ordered_of_items? items hjs
  | .obj members, _, h => by
    obtain ⟨ms, hms, rfl⟩ := Option.map_eq_some_iff.1 h
    exact ⟨Json.increasing_sortMembers ms, Json.orderedMembers_iff.2 fun m hm =>
      Json.orderedMembers_iff.1 (ordered_of_members? members hms) m (Json.mem_sortMembers hm)⟩

theorem ordered_of_items? : (ss : List Source) → {js : List Json} → items? ss = some js →
    Json.OrderedItems js
  | [], _, h => by cases h; trivial
  | s :: ss, _, h => by
    rw [items?] at h
    split at h
    · cases h
      exact ⟨ordered_of_json? s (by assumption), ordered_of_items? ss (by assumption)⟩
    · cases h

theorem ordered_of_members? : (ss : List (String × Source)) → {ms : List (String × Json)} →
    members? ss = some ms → Json.OrderedMembers ms
  | [], _, h => by cases h; trivial
  | (_, s) :: ss, _, h => by
    rw [members?] at h
    split at h
    · cases h
      exact ⟨ordered_of_json? s (by assumption), ordered_of_members? ss (by assumption)⟩
    · cases h

end

/-- Reads a source as an untyped value. -/
def value? (s : Source) : Option Value :=
  match h : s.json? with
  | some j => some ⟨j, ordered_of_json? s h⟩
  | none => none

theorem value?_eq_some {s : Source} {v : Value} : s.value? = some v ↔ s.json? = some v.json := by
  unfold value?
  split
  case h_1 j h =>
    refine ⟨fun e => ?_, fun e => congrArg some (Subtype.ext (Option.some.inj (h.symm.trans e)))⟩
    cases e
    exact h
  case h_2 h => simp [h]

end Source

namespace Json

mutual

/-- A value as a source. -/
def source : Json → Source
  | .null => .null
  | .bool b => .bool b
  | .num n => .num n
  | .str s => .str s
  | .arr items => .arr (sourceItems items)
  | .obj members => .obj (sourceMembers members)

/-- Values as sources. -/
def sourceItems : List Json → List Source
  | [] => []
  | j :: js => source j :: sourceItems js

/-- Members as sources. -/
def sourceMembers : List (String × Json) → List (String × Source)
  | [] => []
  | (name, j) :: ms => (name, source j) :: sourceMembers ms

end

theorem sourceItems_eq_map (js : List Json) : sourceItems js = js.map source := by
  induction js with
  | nil => rfl
  | cons j js ih => simp [sourceItems, ih]

theorem sourceMembers_eq_map (ms : List (String × Json)) :
    sourceMembers ms = ms.map fun m => (m.1, m.2.source) := by
  induction ms with
  | nil => rfl
  | cons m ms ih =>
    obtain ⟨name, j⟩ := m
    simp [sourceMembers, ih]

mutual

theorem json?_source : (j : Json) → j.Ordered → j.source.json? = some j
  | .null, _ => rfl
  | .bool _, _ => rfl
  | .num _, _ => rfl
  | .str _, _ => rfl
  | .arr items, h => by
    rw [source, Source.json?, items?_sourceItems items h]
    rfl
  | .obj members, h => by
    rw [source, Source.json?, members?_sourceMembers members h.2, Option.map_some,
      sortMembers_of_increasing h.1]

theorem items?_sourceItems : (js : List Json) → OrderedItems js →
    Source.items? (sourceItems js) = some js
  | [], _ => rfl
  | j :: js, h => by
    rw [sourceItems, Source.items?, json?_source j h.1, items?_sourceItems js h.2]

theorem members?_sourceMembers : (ms : List (String × Json)) → OrderedMembers ms →
    Source.members? (sourceMembers ms) = some ms
  | [], _ => rfl
  | (_, j) :: ms, h => by
    rw [sourceMembers, Source.members?, json?_source j h.1, members?_sourceMembers ms h.2]

end

end Json

namespace Value

/-- The value as a source. -/
def source (v : Value) : Source := v.json.source

/-- A value written as a source reads as itself. -/
@[simp] theorem value?_source (v : Value) : v.source.value? = some v :=
  Source.value?_eq_some.2 (Json.json?_source v.json v.property)

end Value

end PromptStudio
