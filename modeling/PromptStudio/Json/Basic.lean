/-!
# JSON values

`Json` is a JSON value with its members in the order in which they are written. A value read from
outside keeps each object's members in strictly increasing order of their names, and this is the
invariant of the subtype `Value`; `Value.ofMembers` restores it for members in any order, the last
of several of one name winning.
-/

namespace PromptStudio

/-- A number: a natural number, a negative integer `-(n + 1)`, or a double. -/
inductive Number
  | whole (n : Nat)
  | below (n : Nat)
  | double (x : Float)

/-- A JSON value. -/
inductive Json
  | null
  | bool (b : Bool)
  | num (n : Number)
  | str (s : String)
  | arr (items : List Json)
  | obj (members : List (String × Json))

instance : Inhabited Json := ⟨.null⟩

namespace Json

/-- A natural number. -/
def nat (n : Nat) : Json := .num (.whole n)

/-- A double. -/
def double (x : Float) : Json := .num (.double x)

/-- An integer. -/
def int : Int → Json
  | .ofNat n => .num (.whole n)
  | .negSucc n => .num (.below n)

/-- An object of the members that are there. -/
def record (members : List (String × Option Json)) : Json :=
  .obj (members.filterMap fun m => m.2.map (m.1, ·))

/-- The text, or null. -/
def textOrNull : Option String → Json
  | some s => .str s
  | none => .null

/-- The member `name` of an object. -/
def member? (name : String) : Json → Option Json
  | .obj members => members.lookup name
  | _ => none

/-- The text that the value is. -/
def text? : Json → Option String
  | .str s => some s
  | _ => none

/-! ## Members in order -/

/-- Puts a member into ordered members, in place of the one of its name. -/
def insertMember {α : Type} (name : String) (v : α) : List (String × α) → List (String × α)
  | [] => [(name, v)]
  | m :: ms =>
    if name < m.1 then (name, v) :: m :: ms
    else if name = m.1 then (name, v) :: ms
    else m :: insertMember name v ms

/-- Puts members in order, the last of each name winning. -/
def sortMembers {α : Type} (ms : List (String × α)) : List (String × α) :=
  ms.foldl (fun sorted m => insertMember m.1 m.2 sorted) []

/-- The names increase strictly. -/
def Increasing {α : Type} (ms : List (String × α)) : Prop := ms.Pairwise (·.1 < ·.1)

mutual

/-- Every object in the value has strictly increasing member names. -/
def Ordered : Json → Prop
  | .arr items => OrderedItems items
  | .obj members => Increasing members ∧ OrderedMembers members
  | _ => True

/-- Every item is ordered. -/
def OrderedItems : List Json → Prop
  | [] => True
  | j :: js => Ordered j ∧ OrderedItems js

/-- Every member's value is ordered. -/
def OrderedMembers : List (String × Json) → Prop
  | [] => True
  | (_, j) :: ms => Ordered j ∧ OrderedMembers ms

end

theorem mem_insertMember {α : Type} {name : String} {v : α} {m : String × α}
    {ms : List (String × α)} (h : m ∈ insertMember name v ms) : m = (name, v) ∨ m ∈ ms := by
  induction ms with
  | nil => simpa [insertMember] using h
  | cons n ns ih =>
    rw [insertMember] at h
    split at h
    · simpa using h
    split at h
    · rcases List.mem_cons.1 h with h | h
      · exact .inl h
      · exact .inr (List.mem_cons_of_mem _ h)
    · rcases List.mem_cons.1 h with h | h
      · exact .inr (h ▸ List.mem_cons_self)
      · exact (ih h).imp_right (List.mem_cons_of_mem _)

theorem increasing_insertMember {α : Type} (name : String) (v : α) {ms : List (String × α)}
    (h : Increasing ms) : Increasing (insertMember name v ms) := by
  induction ms with
  | nil => simp [insertMember, Increasing]
  | cons m ms ih =>
    obtain ⟨hm, hms⟩ := List.pairwise_cons.1 h
    rw [insertMember]
    split
    case isTrue hlt =>
      refine List.pairwise_cons.2 ⟨fun x hx => ?_, h⟩
      rcases List.mem_cons.1 hx with rfl | hx
      · exact hlt
      · exact String.lt_trans hlt (hm x hx)
    case isFalse hge =>
      split
      case isTrue heq => exact List.pairwise_cons.2 ⟨fun x hx => heq ▸ hm x hx, hms⟩
      case isFalse hne =>
        refine List.pairwise_cons.2 ⟨fun x hx => ?_, ih hms⟩
        rcases mem_insertMember hx with rfl | hx
        · show m.1 < name
          grind
        · exact hm x hx

theorem increasing_foldl_insertMember {α : Type} (ms : List (String × α))
    {sorted : List (String × α)} (h : Increasing sorted) :
    Increasing (ms.foldl (fun sorted m => insertMember m.1 m.2 sorted) sorted) := by
  induction ms generalizing sorted with
  | nil => exact h
  | cons m ms ih => exact ih (increasing_insertMember m.1 m.2 h)

/-- Members put in order are in order. -/
theorem increasing_sortMembers {α : Type} (ms : List (String × α)) : Increasing (sortMembers ms) :=
  increasing_foldl_insertMember ms List.Pairwise.nil

theorem mem_sortMembers {α : Type} {m : String × α} {ms : List (String × α)}
    (h : m ∈ sortMembers ms) : m ∈ ms := by
  have key : ∀ (ms sorted : List (String × α)),
      m ∈ ms.foldl (fun sorted m => insertMember m.1 m.2 sorted) sorted → m ∈ ms ∨ m ∈ sorted := by
    intro ms
    induction ms with
    | nil => exact fun _ h => .inr h
    | cons n ns ih =>
      intro sorted h
      rcases ih _ h with h | h
      · exact .inl (List.mem_cons_of_mem _ h)
      · rcases mem_insertMember h with rfl | h
        · exact .inl List.mem_cons_self
        · exact .inr h
  simpa using key ms [] h

theorem insertMember_of_lt {α : Type} {name : String} {v : α} {ms : List (String × α)}
    (h : ∀ m ∈ ms, m.1 < name) : insertMember name v ms = ms ++ [(name, v)] := by
  induction ms with
  | nil => rfl
  | cons m ms ih =>
    have hm := h m List.mem_cons_self
    have h1 : ¬ name < m.1 := by grind
    have h2 : name ≠ m.1 := by grind
    rw [insertMember, if_neg h1, if_neg h2, ih fun n hn => h n (List.mem_cons_of_mem _ hn)]
    rfl

/-- Members in order stay as they are. -/
theorem sortMembers_of_increasing {α : Type} {ms : List (String × α)} (h : Increasing ms) :
    sortMembers ms = ms := by
  have key : ∀ (ms sorted : List (String × α)), Increasing (sorted ++ ms) →
      ms.foldl (fun sorted m => insertMember m.1 m.2 sorted) sorted = sorted ++ ms := by
    intro ms
    induction ms with
    | nil => simp
    | cons m ms ih =>
      intro sorted h
      have hlt : ∀ n ∈ sorted, n.1 < m.1 :=
        fun n hn => (List.pairwise_append.1 h).2.2 n hn m List.mem_cons_self
      rw [List.foldl_cons, insertMember_of_lt hlt, ih _ (by simpa using h)]
      simp
  exact key ms [] h

theorem orderedItems_iff {js : List Json} : OrderedItems js ↔ ∀ j ∈ js, Ordered j := by
  induction js with
  | nil => simp [OrderedItems]
  | cons j js ih => simp [OrderedItems, ih]

theorem orderedMembers_iff {ms : List (String × Json)} :
    OrderedMembers ms ↔ ∀ m ∈ ms, Ordered m.2 := by
  induction ms with
  | nil => simp [OrderedMembers]
  | cons m ms ih =>
    obtain ⟨name, j⟩ := m
    simp [OrderedMembers, ih]

end Json

/-- A JSON value whose objects have their members in order. -/
def Value : Type := { j : Json // j.Ordered }

namespace Value

/-- The value as JSON. -/
def json (v : Value) : Json := v.val

/-- The null value. -/
def null : Value := ⟨.null, trivial⟩

instance : Inhabited Value := ⟨null⟩

/-- A text. -/
def str (s : String) : Value := ⟨.str s, trivial⟩

/-- A list of values. -/
def arr (vs : List Value) : Value :=
  ⟨.arr (vs.map json), Json.orderedItems_iff.2 fun j hj => by
    obtain ⟨v, _, rfl⟩ := List.mem_map.1 hj
    exact v.property⟩

/-- An object of members in any order. -/
def ofMembers (ms : List (String × Value)) : Value :=
  ⟨.obj (Json.sortMembers (ms.map fun m => (m.1, m.2.json))),
    Json.increasing_sortMembers _, Json.orderedMembers_iff.2 fun m hm => by
      obtain ⟨n, _, rfl⟩ := List.mem_map.1 (Json.mem_sortMembers hm)
      exact n.2.property⟩

/-- Nothing stands for null. -/
def nonNull? (v : Value) : Option Value :=
  match v.json with
  | .null => none
  | _ => some v

end Value

end PromptStudio
