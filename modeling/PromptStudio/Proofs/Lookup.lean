import Mathlib.Data.List.Basic

/-!
# Looking up by name

Members of objects, numbers of nodes and remembered executions are lists of named things. The first
of a name is found, and the others do not count.
-/

namespace PromptStudio

variable {β γ : Type}

theorem lookup_cons {κ : Type} [DecidableEq κ] (m : κ × β) (ms : List (κ × β)) (key : κ) :
    (m :: ms).lookup key = if key = m.1 then some m.2 else ms.lookup key := by
  rw [List.lookup_cons]
  by_cases h : key = m.1
  · rw [if_pos h, beq_iff_eq.mpr h]
  · rw [if_neg h, beq_eq_false_iff_ne.mpr h]

theorem lookup_filter (p : String → Bool) (name : String) (members : List (String × β)) :
    (members.filter fun m => p m.1).lookup name = if p name then members.lookup name else none := by
  induction members with
  | nil => simp
  | cons m ms ih =>
    obtain ⟨key, x⟩ := m
    rw [List.filter_cons, List.lookup_cons]
    by_cases hkey : name = key
    · subst hkey
      by_cases hp : p name = true
      · simp [hp]
      · simp [hp, ih]
    · have hne : (name == key) = false := beq_false_of_ne hkey
      rw [hne]
      split
      · rw [List.lookup_cons, hne, ih]
      · exact ih

/-- The names that are kept are found as before. -/
theorem lookup_filter_contains {names : List String} {name : String} (h : name ∈ names)
    (members : List (String × β)) :
    (members.filter fun m => names.contains m.1).lookup name = members.lookup name := by
  rw [lookup_filter names.contains, if_pos (List.contains_iff_mem.mpr h)]

/-- All names but the one that is dropped are found as before. -/
theorem lookup_filter_bne (dropped name : String) (members : List (String × β)) :
    (members.filter (·.1 != dropped)).lookup name =
      if name = dropped then none else members.lookup name := by
  rw [lookup_filter (· != dropped)]
  by_cases h : name = dropped <;> simp [h]

theorem lookup_map_snd (f : β → γ) (name : String) (members : List (String × β)) :
    (members.map fun m => (m.1, f m.2)).lookup name = (members.lookup name).map f := by
  induction members with
  | nil => rfl
  | cons m ms ih =>
    rw [List.map_cons, lookup_cons, lookup_cons, ih]
    split <;> rfl

/-- Every name of a list is given what `f` says. -/
theorem lookup_map_mk (f : String → β) (names : List String) (name : String) :
    (names.map fun n => (n, f n)).lookup name = if name ∈ names then some (f name) else none := by
  induction names with
  | nil => rfl
  | cons n names ih =>
    rw [List.map_cons, lookup_cons, ih]
    grind

theorem mem_of_lookup {name : String} {x : β} {members : List (String × β)}
    (h : members.lookup name = some x) : (name, x) ∈ members := by
  obtain ⟨before, after, rfl, -⟩ := List.lookup_eq_some_iff.mp h
  simp

/-- Where names come once, every member is found by its name. -/
theorem lookup_of_mem {m : String × β} {members : List (String × β)}
    (hnodup : (members.map Prod.fst).Nodup) (h : m ∈ members) : members.lookup m.1 = some m.2 := by
  induction members with
  | nil => cases h
  | cons m' ms ih =>
    obtain ⟨hm', hms⟩ := List.nodup_cons.mp hnodup
    rw [lookup_cons]
    rcases List.mem_cons.mp h with rfl | h
    · rw [if_pos rfl]
    · have hne : m.1 ≠ m'.1 := fun heq => hm' (heq ▸ List.mem_map_of_mem h)
      rw [if_neg hne, ih hms h]

/-- Just the names that are not there are not found. -/
theorem lookup_eq_none_iff {name : String} {members : List (String × β)} :
    members.lookup name = none ↔ name ∉ members.map Prod.fst := by
  rw [List.lookup_eq_none_iff]
  constructor
  · rintro h hmem
    obtain ⟨m, hm, rfl⟩ := List.mem_map.mp hmem
    exact bne_iff_ne.mp (h m hm) rfl
  · exact fun h m hm => bne_iff_ne.mpr fun heq => h (heq ▸ List.mem_map_of_mem hm)

/-- A name that comes once has one member. -/
theorem filter_beq_eq_singleton {name : String} {x : β} {members : List (String × β)}
    (hnodup : (members.map Prod.fst).Nodup) (h : members.lookup name = some x) :
    members.filter (·.1 == name) = [(name, x)] := by
  induction members with
  | nil => cases h
  | cons m ms ih =>
    obtain ⟨hm, hms⟩ := List.nodup_cons.mp hnodup
    rw [lookup_cons] at h
    split at h
    case isTrue hname =>
      obtain rfl := Option.some.inj h
      have hrest : ms.filter (·.1 == name) = [] := by
        refine List.filter_eq_nil_iff.mpr fun n hn heq => hm ?_
        rw [← hname, ← beq_iff_eq.mp heq]
        exact List.mem_map_of_mem hn
      rw [List.filter_cons, if_pos (beq_iff_eq.mpr hname.symm), hrest, hname]
    case isFalse hname =>
      rw [List.filter_cons, if_neg (by simpa using Ne.symm hname), ih hms h]

end PromptStudio
