import PromptStudio.Proofs.Json.Fields

/-!
# What is written is read back

A writer gives JSON whose members have the order of the writer. As a value it is `Json.toValue`,
with the members in order, and each member is found by its name in either (`member?_sorted_obj`). So
the places of a written record's fields are known (`bind_fields?_record`, `tagged?_source`), and a
record is read back if what stands in each place is (`ReadsBack`).
-/

namespace PromptStudio

variable {α β : Type}

namespace Json

/-! ## Members in order -/

mutual

/-- The same JSON, with the members of every object in order and the last of each name winning. -/
def sorted : Json → Json
  | .arr items => .arr (sortedItems items)
  | .obj members => .obj (sortMembers (sortedMembers members))
  | j => j

/-- Items with their members in order. -/
def sortedItems : List Json → List Json
  | [] => []
  | j :: js => sorted j :: sortedItems js

/-- Members whose own members are in order. -/
def sortedMembers : List (String × Json) → List (String × Json)
  | [] => []
  | (name, j) :: ms => (name, sorted j) :: sortedMembers ms

end

theorem sortedItems_eq_map (js : List Json) : sortedItems js = js.map sorted := by
  induction js with
  | nil => rfl
  | cons j js ih => rw [sortedItems, ih, List.map_cons]

theorem sortedMembers_eq_map (ms : List (String × Json)) :
    sortedMembers ms = ms.map fun m => (m.1, m.2.sorted) := by
  induction ms with
  | nil => rfl
  | cons m ms ih => rw [sortedMembers, ih, List.map_cons]

mutual

/-- JSON read as a value has its members in order. -/
theorem json?_source_eq_sorted : (j : Json) → j.source.json? = some j.sorted
  | .null | .bool _ | .num _ | .str _ => rfl
  | .arr items => by
    rw [source, Source.json?, items?_sourceItems_eq_sorted items, sorted]
    rfl
  | .obj members => by
    rw [source, Source.json?, members?_sourceMembers_eq_sorted members, sorted]
    rfl

theorem items?_sourceItems_eq_sorted : (js : List Json) →
    Source.items? (sourceItems js) = some (sortedItems js)
  | [] => rfl
  | j :: js => by
    rw [sourceItems, Source.items?, json?_source_eq_sorted j, items?_sourceItems_eq_sorted js,
      sortedItems]

theorem members?_sourceMembers_eq_sorted : (ms : List (String × Json)) →
    Source.members? (sourceMembers ms) = some (sortedMembers ms)
  | [] => rfl
  | (_, j) :: ms => by
    rw [sourceMembers, Source.members?, json?_source_eq_sorted j,
      members?_sourceMembers_eq_sorted ms, sortedMembers]

end

theorem ordered_sorted (j : Json) : j.sorted.Ordered :=
  Source.ordered_of_json? j.source (json?_source_eq_sorted j)

theorem sorted_of_ordered {j : Json} (h : j.Ordered) : j.sorted = j :=
  Option.some.inj ((json?_source_eq_sorted j).symm.trans (json?_source j h))

/-- The JSON as a value. -/
def toValue (j : Json) : Value := ⟨j.sorted, ordered_sorted j⟩

@[simp] theorem json_toValue (j : Json) : j.toValue.json = j.sorted := rfl

@[simp] theorem sorted_json (v : Value) : v.json.sorted = v.json := sorted_of_ordered v.property

@[simp] theorem sorted_str (s : String) : (str s).sorted = .str s := rfl

@[simp] theorem sorted_int (n : Int) : (int n).sorted = .int n := by cases n <;> rfl

/-! ## Members of what is written -/

theorem lookup_insertMember (name key : String) (v : β) (ms : List (String × β)) :
    (insertMember name v ms).lookup key = if key = name then some v else ms.lookup key := by
  induction ms with
  | nil => exact lookup_cons (name, v) [] key
  | cons m ms ih =>
    rw [insertMember]
    split
    · exact lookup_cons (name, v) (m :: ms) key
    split
    case isTrue hname =>
      rw [lookup_cons, lookup_cons, ← hname]
      split <;> rfl
    case isFalse hname =>
      rw [lookup_cons, lookup_cons, ih]
      grind

theorem lookup_foldl_insertMember {ms : List (String × β)} (h : (ms.map Prod.fst).Nodup)
    (sorted : List (String × β)) (name : String) :
    (ms.foldl (fun sorted m => insertMember m.1 m.2 sorted) sorted).lookup name =
      (ms.lookup name).or (sorted.lookup name) := by
  induction ms generalizing sorted with
  | nil => rfl
  | cons m ms ih =>
    obtain ⟨hm, hms⟩ := List.nodup_cons.mp h
    rw [List.foldl_cons, ih hms, lookup_insertMember, lookup_cons]
    split
    case isTrue hname =>
      rw [hname, lookup_eq_none_iff.mpr hm]
      rfl
    case isFalse => rfl

/-- Members are found by name whatever their order. -/
theorem lookup_sortMembers {ms : List (String × β)} (h : (ms.map Prod.fst).Nodup) (name : String) :
    (sortMembers ms).lookup name = ms.lookup name := by
  rw [sortMembers, lookup_foldl_insertMember h]
  exact Option.or_none

/-- A written member stands in the value under its name. -/
theorem member?_sorted_obj {ms : List (String × Json)} (h : (ms.map Prod.fst).Nodup)
    (name : String) : (obj ms).sorted.member? name = (ms.lookup name).map sorted := by
  have hnames : ((sortedMembers ms).map Prod.fst).Nodup := by
    rw [sortedMembers_eq_map, List.map_map]
    exact h
  rw [sorted, member?, lookup_sortMembers hnames, sortedMembers_eq_map, lookup_map_snd]

/-- The members of a record that are there. -/
def present (ms : List (String × Option Json)) : List (String × Json) :=
  ms.filterMap fun m => m.2.map (m.1, ·)

theorem map_fst_present (ms : List (String × Option Json)) :
    ((present ms).map Prod.fst).Sublist (ms.map Prod.fst) := by
  induction ms with
  | nil => exact .slnil
  | cons m ms ih =>
    obtain ⟨name, place⟩ := m
    cases place with
    | none => exact ih.cons name
    | some j => exact ih.cons_cons name

theorem lookup_present {ms : List (String × Option Json)} (h : (ms.map Prod.fst).Nodup)
    (name : String) : (present ms).lookup name = (ms.lookup name).join := by
  induction ms with
  | nil => rfl
  | cons m ms ih =>
    obtain ⟨key, place⟩ := m
    obtain ⟨hkey, hms⟩ := List.nodup_cons.mp h
    rw [lookup_cons]
    cases place with
    | none =>
      show (present ms).lookup name = _
      split
      case isTrue hname =>
        exact lookup_eq_none_iff.mpr fun hmem => hkey (hname ▸ (map_fst_present ms).subset hmem)
      case isFalse => exact ih hms
    | some j =>
      show ((key, j) :: present ms).lookup name = _
      rw [lookup_cons, ih hms]
      split <;> rfl

/-- A member of a written record stands in the value under its name, if it is there. -/
theorem member?_sorted_record {ms : List (String × Option Json)} (h : (ms.map Prod.fst).Nodup)
    (name : String) : (record ms).sorted.member? name = (ms.lookup name).join.map sorted := by
  have hnames : ((present ms).map Prod.fst).Nodup := (map_fst_present ms).nodup h
  rw [← lookup_present h]
  exact member?_sorted_obj hnames name

/-- An object without its tag. -/
def untagged : Json → Json
  | .obj members => .obj (members.filter (·.1 != "type"))
  | j => j

theorem member?_sorted_untagged {ms : List (String × Option Json)} (h : (ms.map Prod.fst).Nodup)
    {name : String} (hname : name ≠ "type") :
    (record ms).untagged.sorted.member? name = (record ms).sorted.member? name := by
  have hnames : ((present ms).map Prod.fst).Nodup := (map_fst_present ms).nodup h
  have hrest : (((present ms).filter (·.1 != "type")).map Prod.fst).Nodup :=
    (List.filter_sublist.map Prod.fst).nodup hnames
  show (obj ((present ms).filter (·.1 != "type"))).sorted.member? name =
    (obj (present ms)).sorted.member? name
  rw [member?_sorted_obj hnames, member?_sorted_obj hrest, lookup_filter_bne, if_neg hname]

/-! ## Reading back -/

/-- What `write` writes for `x` is read by `read` as `x`. -/
def ReadsBack (read : Source → Option α) (write : α → Json) (x : α) : Prop :=
  read (write x).sorted.source = some x

section

variable {read : Source → Option α} {write : α → Json} {fs : Fields} {name : String}

theorem ReadsBack.need {x : α} (hx : ReadsBack read write x)
    (h : Held fs name (some (write x).sorted)) : fs.need name read = some x := by
  rw [Fields.need, h.1]
  exact hx

theorem ReadsBack.orElse {x : α} (hx : ReadsBack read write x)
    (h : Held fs name (some (write x).sorted)) (default : α) :
    fs.orElse name default read = some x := by
  rw [Fields.orElse, h.1]
  exact hx

/-- A field that is left out, and never written as null, may be missing. -/
theorem Held.maybe {x : Option α} (h : Held fs name ((x.map write).map sorted))
    (hx : ∀ y, ReadsBack read write y) (hnull : ∀ y, (write y).sorted ≠ .null) :
    fs.maybe name read = some x := by
  rw [Fields.maybe, Fields.orElse, h.1]
  cases x with
  | none => rfl
  | some y =>
    show Source.option? read (write y).sorted.source = some (some y)
    rw [option?_source read (hnull y), hx y]
    rfl

theorem readsBack_text (s : String) : ReadsBack Source.text? .str s := rfl

theorem readsBack_value (v : Value) : ReadsBack Source.value? Value.json v := by
  unfold ReadsBack
  rw [sorted_json]
  exact Value.value?_source v

theorem readsBack_list {xs : List α} (h : ∀ x ∈ xs, ReadsBack read write x) :
    ReadsBack (Source.list? read) (fun xs => .arr (xs.map write)) xs := by
  show (sourceItems (sortedItems (xs.map write))).mapM read = some xs
  rw [sourceItems_eq_map, sortedItems_eq_map]
  induction xs with
  | nil => rfl
  | cons x xs ih =>
    obtain ⟨hx, hxs⟩ := List.forall_mem_cons.mp h
    have hx : read (write x).sorted.source = some x := hx
    rw [List.map_cons, List.map_cons, List.map_cons, List.mapM_cons, hx, ih hxs]
    rfl

end

/-- What is read from the fields of a written record is read from what was written. -/
theorem bind_fields?_record {names : List String} {ms : List (String × Option Json)}
    {read : Fields → Option α} {x : α} (h : (ms.map Prod.fst).Nodup)
    (hread : ∀ fs, (∀ name ∈ names, Held fs name ((ms.lookup name).join.map sorted)) →
      read fs = some x) :
    (Source.fields? names (record ms).sorted.source).bind read = some x := by
  have hrecord : IsRecord names (record ms).sorted ((record ms).sorted.member? ·) :=
    .inl ⟨_, rfl, rfl⟩
  obtain ⟨fs, hfs, hheld⟩ := exists_fields (ordered_sorted _) hrecord
  rw [hfs]
  refine hread fs fun name hname => ?_
  rw [← member?_sorted_record h]
  exact hheld name hname

/-- A tagged value is read as its tag and the members beside it. -/
theorem tagged?_source {o : Value} {tag : String} (h : o.json.member? "type" = some (.str tag)) :
    ∃ members, o.source.tagged? = some (tag, .obj members) ∧
      Shows members fun name => o.json.member? name := by
  obtain ⟨ms, ho⟩ : ∃ ms, o.json = .obj ms := by
    cases hj : o.json with
    | obj ms => exact ⟨ms, rfl⟩
    | _ => simp [hj, member?] at h
  have hnodup : ((sourceMembers ms).map Prod.fst).Nodup := by
    rw [sourceMembers_eq_map, List.map_map]
    exact nodup_of_increasing (ho ▸ o.property : (Json.obj ms).Ordered).1
  have htag : (sourceMembers ms).lookup "type" = some (.str tag) := by
    rw [ho, member?] at h
    rw [sourceMembers_eq_map, lookup_map_snd, h]
    rfl
  have hreadable : (Source.obj ((sourceMembers ms).filter (·.1 != "type"))).isReadable := by
    have hrest : (sourceMembers ms).filter (·.1 != "type") =
        sourceMembers (ms.filter (·.1 != "type")) := by
      rw [sourceMembers_eq_map, sourceMembers_eq_map, List.filter_map]
      rfl
    rw [hrest]
    exact Option.isSome_of_eq_some (json?_source_eq_sorted (.obj _))
  refine ⟨_, ?_, shows_members ho⟩
  rw [Value.source, ho, source, Source.tagged?, filter_beq_eq_singleton hnodup htag]
  exact if_pos hreadable

/-- What is read from a written tagged value is read from its tag and the members beside it. -/
theorem bind_tagged?_obj {tag : String} {ms : List (String × Json)}
    {read : String × Source → Option α} {x : α} (h : ((("type", str tag) :: ms).map Prod.fst).Nodup)
    (hread : ∀ members, Shows members (fun name =>
      ((("type", str tag) :: ms).lookup name).map sorted) → read (tag, .obj members) = some x) :
    (obj (("type", .str tag) :: ms)).sorted.source.tagged?.bind read = some x := by
  have hplace := member?_sorted_obj h
  obtain ⟨members, htagged, hshows⟩ :=
    tagged?_source (o := (obj (("type", .str tag) :: ms)).toValue) (hplace "type")
  have htagged : (obj (("type", .str tag) :: ms)).sorted.source.tagged? = _ := htagged
  rw [htagged]
  refine hread members ⟨hshows.nodup, fun name hname => ?_⟩
  rw [← hplace]
  exact hshows.held name hname

end Json

end PromptStudio
