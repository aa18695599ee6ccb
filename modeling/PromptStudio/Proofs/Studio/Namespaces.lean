import Mathlib.Data.List.Infix
import Mathlib.Logic.Function.Basic
import PromptStudio.Proofs.Studio.Tasks

/-!
# Stores that share a map

Several stores put their executions into one map, each under keys that start with its own name. A
store cannot tell that another one is there as long as no key of the other is one of its own
(`isolated_of_apart`). The keys are made by writing name, separator and workflow one behind the
other, so two names give a common key when one of them is the other one followed by the separator,
or by what is left of it when its last character is shared (`exists_key_eq_iff`).
-/

namespace PromptStudio.Tasks

variable {p q id id' : String}

/-! ## Accesses -/

/-- What is asked of a store: to remember an execution, to name it, or to forget it. -/
inductive Access
  | set (id execution : String)
  | get (id : String)
  | remove (id : String)
deriving DecidableEq, Repr

/-- Makes an access through the store of this name, and gives what it returns. -/
def access (t : Tasks) (space : String) : Access → Tasks × Option String
  | .set id execution => (t.set space id execution, none)
  | .get id => (t, t.get? space id)
  | .remove id => t.remove space id

/-- The same access to a map that nobody shares. -/
def Access.perform (m : String → Option String) :
    Access → (String → Option String) × Option String
  | .set id execution => (Function.update m id (some execution), none)
  | .get id => (m, m id)
  | .remove id => (Function.update m id none, m id)

/-- Makes accesses through two stores of one map, in any order; what is returned is marked by the
store that returns it. -/
def shared (p q : String) (t : Tasks) :
    List (Access ⊕ Access) → List (Option String ⊕ Option String)
  | [] => []
  | .inl a :: as => .inl (t.access p a).2 :: shared p q (t.access p a).1 as
  | .inr a :: as => .inr (t.access q a).2 :: shared p q (t.access q a).1 as

/-- Makes accesses to a map that nobody shares, and gives what is returned. -/
def alone (m : String → Option String) : List Access → List (Option String)
  | [] => []
  | a :: as => (a.perform m).2 :: alone (a.perform m).1 as

/-- Whatever is done through the two stores, each of them returns what it would return if the map
were its own. -/
def Isolated (t : Tasks) (p q : String) : Prop :=
  ∀ accesses : List (Access ⊕ Access),
    (t.shared p q accesses).filterMap Sum.getLeft? =
        alone (t.get? p) (accesses.filterMap Sum.getLeft?) ∧
      (t.shared p q accesses).filterMap Sum.getRight? =
        alone (t.get? q) (accesses.filterMap Sum.getRight?)

theorem get?_remove (t : Tasks) (space space' id id' : String) :
    (t.remove space id).1.get? space' id' =
      if key space' id' = key space id then none else t.get? space' id' := by
  unfold remove get? without
  exact lookup_filter_bne _ _ _

theorem key_inj : key p id = key p id' ↔ id = id' := by
  constructor
  · intro h
    have hlist := congrArg String.toList h
    simpa [key, String.toList_inj] using hlist
  · rintro rfl
    rfl

/-- What a store returns, and what it shows afterwards, is what a map of its own would return and
show. -/
theorem access_self (t : Tasks) (space : String) (a : Access) :
    ((t.access space a).1.get? space, (t.access space a).2) = a.perform (t.get? space) := by
  cases a with
  | set id execution =>
    refine Prod.ext (funext fun id' => ?_) rfl
    show (t.set space id execution).get? space id' = Function.update (t.get? space) id _ id'
    rw [get?_set, Function.update_apply]
    simp only [key_inj]
  | get id => rfl
  | remove id =>
    refine Prod.ext (funext fun id' => ?_) rfl
    show (t.remove space id).1.get? space id' = Function.update (t.get? space) id _ id'
    rw [get?_remove, Function.update_apply]
    simp only [key_inj]

/-- A store shows nothing of what is done through another one if they have no key in common. -/
theorem access_other (h : ∀ id id', key p id ≠ key q id') (t : Tasks) (a : Access) :
    (t.access q a).1.get? p = t.get? p := by
  funext id
  cases a with
  | set id' execution =>
    show (t.set q id' execution).get? p id = _
    rw [get?_set, if_neg (h id id')]
  | get id' => rfl
  | remove id' =>
    show (t.remove q id').1.get? p id = _
    rw [get?_remove, if_neg (h id id')]

theorem isolated_of_apart (h : ∀ id id', key p id ≠ key q id') (t : Tasks) : t.Isolated p q := by
  have h' : ∀ id id', key q id ≠ key p id' := fun id id' => (h id' id).symm
  intro accesses
  induction accesses generalizing t with
  | nil => exact ⟨rfl, rfl⟩
  | cons x as ih =>
    -- the store that is used moves on as a map of its own would, and the other one stays
    cases x with
    | inl a =>
      have hself := access_self t p a
      obtain ⟨hleft, hright⟩ := ih (t.access p a).1
      rw [access_other h'] at hright
      simp only [shared, List.filterMap_cons, Sum.getLeft?, Sum.getRight?, alone, ← hself]
      exact ⟨congrArg _ hleft, hright⟩
    | inr a =>
      have hself := access_self t q a
      obtain ⟨hleft, hright⟩ := ih (t.access q a).1
      rw [access_other h] at hleft
      simp only [shared, List.filterMap_cons, Sum.getLeft?, Sum.getRight?, alone, ← hself]
      exact ⟨hleft, congrArg _ hright⟩

/-- What is remembered under a common key through one store is found through the other. -/
theorem Isolated.apart {t : Tasks} (h : t.Isolated p q) (id id' : String) :
    key p id ≠ key q id' := by
  intro hkey
  have hfound : ∀ execution, some execution = t.get? q id' := by
    intro execution
    have hright := (h [.inl (.set id execution), .inr (.get id')]).2
    have hread : (t.set p id execution).get? q id' = some execution := by
      rw [get?_set, if_pos hkey.symm]
    have hleft : (t.shared p q [.inl (.set id execution), .inr (.get id')]) =
        [.inl none, .inr ((t.set p id execution).get? q id')] := rfl
    rw [hleft, hread] at hright
    exact List.singleton_inj.mp hright
  have hsame : some "" = some "e" := (hfound "").trans (hfound "e").symm
  exact absurd hsame (by decide)

/-! ## Common keys -/

/-- What stands between the name of a store and a workflow. -/
def separator : List Char := ['_', 't', 'a', 's', 'k', '_', '_', '_']

theorem toList_key (space id : String) :
    (key space id).toList = "for_".toList ++ (space.toList ++ (separator ++ id.toList)) := by
  simp [key, separator]

/-- Only the last character of the separator is also its beginning. -/
theorem separator_overlap :
    ∀ n ∈ List.range 9, separator.drop n <+: separator → n = 0 ∨ n = 7 ∨ n = 8 := by
  decide

/-- Behind one separator there can be another one: in front of it, beginning with its last
character, or behind it. -/
theorem cases_of_separator {r k k' : List Char} (h : separator ++ k = r ++ (separator ++ k')) :
    r = [] ∨ r = separator.take 7 ∨ separator <+: r := by
  rcases List.append_eq_append_iff.mp h with ⟨rest, rfl, _⟩ | ⟨rest, hrest, hk⟩
  · exact .inr (.inr (List.prefix_append _ _))
  · have hdrop : separator.drop r.length = rest := by rw [hrest, List.drop_left]
    have htake : separator.take r.length = r := by rw [hrest, List.take_left]
    have hlength : r.length < 9 := by
      have hle : r.length ≤ separator.length := by
        rw [hrest, List.length_append]
        omega
      have height : separator.length = 8 := rfl
      omega
    have hstart : rest <+: separator := by
      have hwhole : rest <+: separator ++ k' := hk ▸ List.prefix_append _ _
      refine List.prefix_of_prefix_length_le hwhole (List.prefix_append _ _) ?_
      rw [hrest, List.length_append]
      omega
    rcases separator_overlap r.length (List.mem_range.mpr hlength) (hdrop ▸ hstart) with
      hn | hn | hn
    · exact .inl (List.length_eq_zero_iff.mp hn)
    · exact .inr (.inl (by rw [← htake, hn]))
    · refine .inr (.inr ?_)
      rw [← htake, hn]
      exact List.prefix_rfl

/-- The name `q` is `p` followed by the separator, or by all of it but its last character. -/
def Extends (p q : String) : Prop :=
  q = p ++ "_task__" ∨ ∃ rest, q = p ++ ("_task___" ++ rest)

theorem eq_or_extends {r k k' : List Char} (hq : q.toList = p.toList ++ r)
    (h : separator ++ k = r ++ (separator ++ k')) : p = q ∨ Extends p q := by
  rcases cases_of_separator h with rfl | rfl | ⟨rest, rfl⟩
  · refine .inl (String.toList_inj.mp ?_)
    rw [hq, List.append_nil]
  · refine .inr (.inl (String.toList_inj.mp ?_))
    rw [hq]
    simp [separator]
  · refine .inr (.inr ⟨String.ofList rest, String.toList_inj.mp ?_⟩)
    rw [hq]
    simp [separator]

/-- Two stores have a key in common exactly if they have the same name, or the name of one extends
that of the other. -/
theorem exists_key_eq_iff :
    (∃ id id', key p id = key q id') ↔ p = q ∨ Extends p q ∨ Extends q p := by
  constructor
  · rintro ⟨id, id', h⟩
    have hlist : p.toList ++ (separator ++ id.toList) = q.toList ++ (separator ++ id'.toList) := by
      have hkeys := congrArg String.toList h
      rw [toList_key, toList_key] at hkeys
      exact List.append_cancel_left hkeys
    rcases List.append_eq_append_iff.mp hlist with ⟨r, hq, hk⟩ | ⟨r, hp, hk⟩
    · rcases eq_or_extends hq hk with heq | hext
      · exact .inl heq
      · exact .inr (.inl hext)
    · rcases eq_or_extends hp hk with heq | hext
      · exact .inl heq.symm
      · exact .inr (.inr hext)
  · have hcommon : ∀ {p q : String}, Extends p q → ∃ id id', key p id = key q id' := by
      rintro p q (rfl | ⟨rest, rfl⟩)
      · exact ⟨"task___", "", String.toList_inj.mp (by simp [key])⟩
      · exact ⟨rest ++ "_task___", "", String.toList_inj.mp (by simp [key])⟩
    rintro (rfl | hext | hext)
    · exact ⟨"", "", rfl⟩
    · exact hcommon hext
    · obtain ⟨id, id', h⟩ := hcommon hext
      exact ⟨id', id, h.symm⟩

/-- The names of the two panels do not extend each other. -/
theorem not_extends_spaces :
    ¬ Extends workflowSpace siteSpace ∧ ¬ Extends siteSpace workflowSpace := by
  constructor <;> rintro (h | ⟨rest, h⟩) <;>
    simpa [workflowSpace, siteSpace] using congrArg String.toList h

/-- Which stores of one map are isolated. Two stores return for every sequence of accesses, made in
any order and for any workflows, what each would return on a map of its own exactly if their names
differ and neither of them is the other one followed by the separator, or by all of it but its last
character, which the next separator then begins with. The stores of the two panels are isolated. -/
theorem isolated_iff (t : Tasks) :
    (∀ p q, t.Isolated p q ↔ p ≠ q ∧ ¬ Extends p q ∧ ¬ Extends q p) ∧
      t.Isolated workflowSpace siteSpace := by
  have hiff : ∀ p q, t.Isolated p q ↔ p ≠ q ∧ ¬ Extends p q ∧ ¬ Extends q p := by
    intro p q
    have hcommon : t.Isolated p q ↔ ¬ ∃ id id', key p id = key q id' := by
      constructor
      · rintro h ⟨id, id', hkey⟩
        exact h.apart id id' hkey
      · intro h
        exact isolated_of_apart (fun id id' hkey => h ⟨id, id', hkey⟩) t
    rw [hcommon, exists_key_eq_iff, not_or, not_or]
  refine ⟨hiff, (hiff _ _).mpr ⟨by decide, ?_⟩⟩
  exact not_extends_spaces

/-- The separator shares its last character with the one behind it. -/
example : key "a" "task___g" = key "a_task__" "g" := by decide

end PromptStudio.Tasks
