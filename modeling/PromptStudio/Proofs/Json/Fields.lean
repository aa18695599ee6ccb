import Mathlib.Data.List.Forall2
import PromptStudio.Json.Decode
import PromptStudio.Proofs.Lookup

/-!
# What the fields of a record are read from

A reader of a type is described by the JSON that it accepts and what it makes of it:
`Reads read Is`. A field is described by what may stand in its place: `Required`, `Defaulted` and
`Nullable` say which member, or which missing member, stands for which value. Of a record that is
written as an object or as a list (`IsRecord`), what is read from the fields found is read from
their places (`bind_fields?_iff`). The same holds of the members that are left once the tag of a
tagged value is taken away (`Shows.bind_fields?_iff`).
-/

namespace PromptStudio

variable {α β γ : Type}

/-- A field that can be read is read, whatever its default. -/
theorem Fields.orElse_of_bind {fs : Fields} {name : String} {read : Source → Option α} {x : α}
    (h : (fs.lookup name).bind read = some x) (default : α) :
    fs.orElse name default read = some x := by
  obtain ⟨s, hlookup, hread⟩ := Option.bind_eq_some_iff.mp h
  rw [Fields.orElse, hlookup]
  exact hread

namespace Json

/-! ## Types -/

/-- `read` accepts just the JSON that `Is` relates to its result. -/
def Reads (read : Source → Option α) (Is : Json → α → Prop) : Prop :=
  ∀ j : Json, j.Ordered → ∀ x, read j.source = some x ↔ Is j x

/-- A text. -/
def IsText (j : Json) (s : String) : Prop := j = .str s

/-- An integer of 64 bits. -/
def IsInt64 (j : Json) (n : Int) : Prop :=
  j = .int n ∧ -(Nat.pow 2 63 : Int) ≤ n ∧ n < (Nat.pow 2 63 : Int)

/-- Any value. -/
def IsValue (j : Json) (v : Value) : Prop := v.json = j

/-- A list of what `Is` relates to its items. -/
def IsListOf (Is : Json → α → Prop) (j : Json) (xs : List α) : Prop :=
  ∃ items, j = .arr items ∧ List.Forall₂ Is items xs

theorem reads_text : Reads Source.text? IsText := by
  intro j _ s
  cases j <;> simp [source, Source.text?, IsText]

theorem reads_int64 : Reads Source.int64? IsInt64 := by
  intro j _ n
  have hlimit : Nat.pow 2 63 = 9223372036854775808 := rfl
  unfold IsInt64
  cases j with
  | num number =>
    cases number with
    | whole k =>
      rw [source, Source.int64?, hlimit]
      cases n with
      | ofNat m =>
        simp [Json.int]
        omega
      | negSucc m => simp [Json.int]
    | below k =>
      rw [source, Source.int64?, hlimit]
      cases n with
      | ofNat m => simp [Json.int]
      | negSucc m =>
        simp [Json.int]
        omega
    | double x => cases n <;> simp [source, Source.int64?, Json.int]
  | _ => cases n <;> simp [source, Source.int64?, Json.int]

theorem reads_value : Reads Source.value? IsValue := by
  intro j hj v
  rw [Source.value?_eq_some, json?_source j hj, Option.some.injEq]
  exact eq_comm

theorem mapM_source {read : Source → Option α} {Is : Json → α → Prop} (hread : Reads read Is)
    {items : List Json} (hitems : OrderedItems items) (xs : List α) :
    (sourceItems items).mapM read = some xs ↔ List.Forall₂ Is items xs := by
  induction items generalizing xs with
  | nil => cases xs <;> simp [sourceItems]
  | cons j js ih =>
    cases xs with
    | nil =>
      rw [sourceItems, List.mapM_cons, List.forall₂_nil_right_iff]
      cases read j.source <;> cases (sourceItems js).mapM read <;> simp
    | cons x xs =>
      rw [List.forall₂_cons, ← hread j hitems.1, ← ih hitems.2, sourceItems, List.mapM_cons]
      cases read j.source <;> cases (sourceItems js).mapM read <;> simp

theorem reads_list {read : Source → Option α} {Is : Json → α → Prop} (hread : Reads read Is) :
    Reads (Source.list? read) (IsListOf Is) := by
  intro j hj xs
  cases j with
  | arr items =>
    rw [source, Source.list?, mapM_source hread hj]
    simp [IsListOf]
  | _ => simp [source, Source.list?, IsListOf]

/-! ## Places -/

/-- The member is there and stands for `x`. -/
def Required (Is : Json → α → Prop) (x : α) (place : Option Json) : Prop :=
  ∃ j, place = some j ∧ Is j x

/-- The member stands for `x`, or it is missing and `x` is the default. -/
def Defaulted (Is : Json → α → Prop) (default x : α) : Option Json → Prop
  | none => x = default
  | some j => Is j x

/-- The member stands for `x`; null and a missing member stand for nothing. -/
def Nullable (Is : Json → α → Prop) (x : Option α) : Option Json → Prop
  | none | some .null => x = none
  | some j => ∃ y, x = some y ∧ Is j y

/-- Among the fields found, the one of this name is what stands in its place. -/
def Held (fs : Fields) (name : String) (place : Option Json) : Prop :=
  fs.lookup name = place.map source ∧ ∀ j, place = some j → j.Ordered

theorem need_iff {read : Source → Option α} {Is : Json → α → Prop} (hread : Reads read Is)
    {fs : Fields} {name : String} {place : Option Json} (h : Held fs name place) (x : α) :
    fs.need name read = some x ↔ Required Is x place := by
  rw [Fields.need, h.1]
  cases place with
  | none => simp [Required]
  | some j =>
    show read j.source = some x ↔ _
    rw [hread j (h.2 j rfl)]
    simp [Required]

theorem orElse_iff {read : Source → Option α} {Is : Json → α → Prop} (hread : Reads read Is)
    {fs : Fields} {name : String} {place : Option Json} (h : Held fs name place) (default x : α) :
    fs.orElse name default read = some x ↔ Defaulted Is default x place := by
  rw [Fields.orElse, h.1]
  cases place with
  | none =>
    show some default = some x ↔ x = default
    rw [Option.some.injEq]
    exact eq_comm
  | some j => exact hread j (h.2 j rfl) x

theorem nullable_some {Is : Json → α → Prop} {x : Option α} {j : Json} (hj : j ≠ .null) :
    Nullable Is x (some j) ↔ ∃ y, x = some y ∧ Is j y := by
  cases j with
  | null => exact absurd rfl hj
  | _ => rfl

theorem option?_source (read : Source → Option α) {j : Json} (hj : j ≠ .null) :
    Source.option? read j.source = (read j.source).map some := by
  cases j with
  | null => exact absurd rfl hj
  | _ => rfl

theorem nonNull?_of_ne {v : Value} (h : v.json ≠ .null) : v.nonNull? = some v := by
  unfold Value.nonNull?
  split
  · exact absurd (by assumption) h
  · rfl

theorem maybe_iff {read : Source → Option α} {Is : Json → α → Prop} (hread : Reads read Is)
    {fs : Fields} {name : String} {place : Option Json} (h : Held fs name place) (x : Option α) :
    fs.maybe name read = some x ↔ Nullable Is x place := by
  rw [Fields.maybe, Fields.orElse, h.1]
  cases place with
  | none =>
    show some none = some x ↔ x = none
    rw [Option.some.injEq]
    exact eq_comm
  | some j =>
    show Source.option? read j.source = some x ↔ _
    by_cases hj : j = .null
    · subst hj
      show some none = some x ↔ x = none
      rw [Option.some.injEq]
      exact eq_comm
    · rw [option?_source read hj, nullable_some hj, Option.map_eq_some_iff]
      constructor
      · rintro ⟨y, hy, rfl⟩
        exact ⟨y, rfl, (hread j (h.2 j rfl) y).mp hy⟩
      · rintro ⟨y, rfl, hy⟩
        exact ⟨y, (hread j (h.2 j rfl) y).mpr hy, rfl⟩

/-- An untyped field treats null as any nullable field does. -/
theorem maybeValue_eq_maybe {fs : Fields} {name : String} {place : Option Json}
    (h : Held fs name place) : fs.maybeValue name = fs.maybe name Source.value? := by
  rw [Fields.maybeValue, Fields.maybe, Fields.orElse, Fields.orElse, h.1]
  cases place with
  | none => rfl
  | some j =>
    obtain ⟨v, hv⟩ : ∃ v : Value, v.json = j := ⟨⟨j, h.2 j rfl⟩, rfl⟩
    have hread : j.source.value? = some v := (reads_value j (h.2 j rfl) v).mpr hv
    show (j.source.value?).map Value.nonNull? = Source.option? Source.value? j.source
    by_cases hj : j = .null
    · subst hj
      rfl
    · rw [option?_source _ hj, hread, Option.map_some, Option.map_some,
        nonNull?_of_ne (hv.trans_ne hj)]

theorem maybeValue_iff {fs : Fields} {name : String} {place : Option Json} (h : Held fs name place)
    (x : Option Value) : fs.maybeValue name = some x ↔ Nullable IsValue x place := by
  rw [maybeValue_eq_maybe h, maybe_iff reads_value h]

/-! ## Records -/

/-- `j` is a record with fields of these names, and `place` tells what stands in the place of each:
the member of this name of an object, or the item at its position of a list. -/
def IsRecord (names : List String) (j : Json) (place : String → Option Json) : Prop :=
  (∃ members, j = .obj members ∧ place = (List.lookup · members)) ∨
    ∃ items, j = .arr items ∧ items.length ≤ names.length ∧
      place = (List.lookup · (names.zip items))

/-- The fields of an object are its members, if no name comes twice. -/
theorem fields?_obj (names : List String) {members : List (String × Source)}
    (h : (members.map Prod.fst).Nodup) :
    Source.fields? names (.obj members) =
      some (members.filter fun m => names.contains m.1) := by
  have hknown : ((members.filter fun m => names.contains m.1).map Prod.fst).Nodup :=
    (List.filter_sublist.map Prod.fst).nodup h
  exact if_pos hknown

theorem nodup_of_increasing {members : List (String × β)} (h : Increasing members) :
    (members.map Prod.fst).Nodup := by
  refine List.pairwise_map.mpr (h.imp fun {m n} hlt heq => ?_)
  exact String.lt_irrefl n.1 (heq ▸ hlt)

theorem ordered_of_lookup {members : List (String × Json)} (h : OrderedMembers members)
    {name : String} {j : Json} (hj : members.lookup name = some j) : j.Ordered :=
  orderedMembers_iff.mp h _ (mem_of_lookup hj)

theorem held_members {names : List String} {members : List (String × Json)}
    (h : OrderedMembers members) {name : String} (hname : name ∈ names) :
    Held ((sourceMembers members).filter fun m => names.contains m.1) name
      (members.lookup name) := by
  refine ⟨?_, fun j hj => ordered_of_lookup h hj⟩
  rw [lookup_filter_contains hname, sourceMembers_eq_map, lookup_map_snd]

theorem held_items {names : List String} {items : List Json} (h : OrderedItems items)
    (name : String) :
    Held (names.zip (sourceItems items)) name ((names.zip items).lookup name) := by
  refine ⟨?_, fun j hj => orderedItems_iff.mp h j (List.of_mem_zip (mem_of_lookup hj)).2⟩
  rw [sourceItems_eq_map, List.zip_map_right]
  exact lookup_map_snd source name (names.zip items)

/-- Exactly the fields of a record are in their places. -/
theorem exists_fields {names : List String} {j : Json} (hj : j.Ordered)
    {place : String → Option Json} (h : IsRecord names j place) :
    ∃ fs, Source.fields? names j.source = some fs ∧
      ∀ name ∈ names, Held fs name (place name) := by
  rcases h with ⟨members, rfl, rfl⟩ | ⟨items, rfl, hlength, rfl⟩
  · refine ⟨_, fields?_obj names ?_, fun name hname => held_members hj.2 hname⟩
    rw [sourceMembers_eq_map, List.map_map]
    exact nodup_of_increasing hj.1
  · refine ⟨names.zip (sourceItems items), ?_, fun name _ => held_items hj name⟩
    rw [source, Source.fields?, sourceItems_eq_map, List.length_map, if_pos hlength]

theorem isRecord_of_fields? {names : List String} {j : Json} {fs : Fields}
    (h : Source.fields? names j.source = some fs) : ∃ place, IsRecord names j place := by
  cases j with
  | obj members => exact ⟨_, .inl ⟨members, rfl, rfl⟩⟩
  | arr items =>
    rw [source, Source.fields?, sourceItems_eq_map, List.length_map] at h
    split at h
    · exact ⟨_, .inr ⟨items, rfl, by assumption, rfl⟩⟩
    · cases h
  | _ => cases h

/-- What is read from the fields of a record is read from their places. -/
theorem bind_fields?_iff {names : List String} {j : Json} (hj : j.Ordered)
    {read : Fields → Option α} {x : α} {Is : (String → Option Json) → Prop}
    (h : ∀ fs place, (∀ name ∈ names, Held fs name (place name)) → (read fs = some x ↔ Is place)) :
    (Source.fields? names j.source).bind read = some x ↔
      ∃ place, IsRecord names j place ∧ Is place := by
  rw [Option.bind_eq_some_iff]
  constructor
  · rintro ⟨fs, hfs, hread⟩
    obtain ⟨place, hrecord⟩ := isRecord_of_fields? hfs
    obtain ⟨fs', hfs', hheld⟩ := exists_fields hj hrecord
    cases hfs.symm.trans hfs'
    exact ⟨place, hrecord, (h fs place hheld).mp hread⟩
  · rintro ⟨place, hrecord, hplace⟩
    obtain ⟨fs, hfs, hheld⟩ := exists_fields hj hrecord
    exact ⟨fs, hfs, (h fs place hheld).mpr hplace⟩

end Json

open Json

/-! ## Fields beside a tag -/

/-- The fields that are read from `members` are in the places that `place` tells. The name of the
variant has no place: it is not among the members. -/
structure Shows (members : List (String × Source)) (place : String → Option Json) : Prop where
  nodup : (members.map Prod.fst).Nodup
  held : ∀ name, name ≠ "type" → Held members name (place name)

namespace Shows

variable {members : List (String × Source)} {place : String → Option Json}

/-- What is read from the fields of the object is read from their places. -/
theorem bind_fields?_iff {α : Type} {names : List String} {read : Fields → Option α} {x : α}
    {P : Prop} (h : Shows members place) (hnames : "type" ∉ names)
    (hread : ∀ fs : Fields, (∀ name ∈ names, Held fs name (place name)) → (read fs = some x ↔ P)) :
    (Source.fields? names (.obj members)).bind read = some x ↔ P := by
  rw [fields?_obj names h.nodup, Option.bind_some]
  refine hread _ fun name hname => ?_
  have hheld := h.held name fun htype => hnames (htype ▸ hname)
  refine ⟨?_, hheld.2⟩
  rw [lookup_filter_contains hname, hheld.1]

theorem bind_fields? {α : Type} {names : List String} {read : Fields → Option α} {x : α}
    (h : Shows members place) (hnames : "type" ∉ names)
    (hread : ∀ fs : Fields, (∀ name ∈ names, Held fs name (place name)) → read fs = some x) :
    (Source.fields? names (.obj members)).bind read = some x :=
  (h.bind_fields?_iff hnames fun fs hheld => iff_of_true (hread fs hheld) trivial).mpr trivial

end Shows

theorem shows_members {o : Value} {members : List (String × Json)} (ho : o.json = .obj members) :
    Shows ((sourceMembers members).filter (·.1 != "type")) fun name => o.json.member? name := by
  have hordered : (Json.obj members).Ordered := ho ▸ o.property
  refine ⟨?_, fun name hname => ⟨?_, fun j hj => ?_⟩⟩
  · refine (List.filter_sublist.map Prod.fst).nodup ?_
    rw [sourceMembers_eq_map, List.map_map]
    exact nodup_of_increasing hordered.1
  · rw [lookup_filter_bne, if_neg hname, sourceMembers_eq_map, lookup_map_snd, ho, member?]
  · rw [ho] at hj
    exact ordered_of_lookup hordered.2 hj

end PromptStudio
