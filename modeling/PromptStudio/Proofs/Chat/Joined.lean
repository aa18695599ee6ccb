import Mathlib.Data.List.Induction
import PromptStudio.Proofs.Chat.Draft

/-!
# Items on either side of log lines

A log line is never shown, but it ends the item before it: text and progress that come next are not
put together with those before it. `Item.joined` puts together what stands side by side, and
`Item.shown` does so with the items that are shown, as if no log line had come between them.

An event in the middle of a turn gives the draft items to take up (`Item.takeUp`) or changes tool
uses (`Item.onUse`), unless it is a log line. These do to the items what they do to what is shown of
them (`shown_takeUp`, `joined_onUse`), and a log line does nothing to that (`shown_log`).
-/

namespace PromptStudio

namespace Item

variable {i j k l : Item} {is js : List Item} {a b callId : String} {change : ToolUse → ToolUse}

/-- The two items as one: texts put together, and the later of two percentages, where a percentage
of zero, which no known stage has, keeps the one before. -/
def join? : Item → Item → Option Item
  | .text id before, .text _ more => some (.text id (before ++ more))
  | .progress id before, .progress _ after =>
    some (.progress id (if after = 0 then before else after))
  | _, _ => none

/-- The items with one more, which the last of them takes up if it can. -/
def takeUp (is : List Item) (i : Item) : List Item :=
  match is.getLast?.bind (·.join? i) with
  | some j => is.dropLast ++ [j]
  | none => is ++ [i]

/-- The item in front of others, the first of which it takes up if it can. -/
def joinTo (i : Item) : List Item → List Item
  | [] => [i]
  | j :: js =>
    match i.join? j with
    | some k => k :: js
    | none => i :: j :: js

/-- The items, those put together that stand side by side. -/
def joined : List Item → List Item
  | [] => []
  | i :: is => i.joinTo (joined is)

/-- The items that are shown, as if no log line had come between them. -/
def shown (is : List Item) : List Item := joined (is.filter isVisible)

/-! ## Two items as one -/

theorem join?_withId (i j : Item) (a b : String) :
    (i.withId a).join? (j.withId b) = (i.join? j).map (·.withId a) := by
  cases i <;> cases j <;> rfl

theorem join?_assoc (i j k : Item) :
    (i.join? j).bind (·.join? k) = (j.join? k).bind (i.join? ·) := by
  cases i <;> cases j <;> try rfl
  all_goals cases k <;> try rfl
  · exact congrArg (fun s => some (Item.text _ s)) String.append_assoc
  · simp only [join?, Option.bind_some, Option.some.injEq, Item.progress.injEq, true_and]
    split <;> simp_all

/-- What two items make together joins the same items as the first of them. -/
theorem join?_eq_none_left (h : i.join? j = some k) : l.join? k = none ↔ l.join? i = none := by
  cases i <;> cases j <;> cases h <;> cases l <;> simp [join?]

theorem join?_eq_none_right (h : i.join? j = some k) : k.join? l = none ↔ j.join? l = none := by
  cases i <;> cases j <;> cases h <;> cases l <;> simp [join?]

theorem isVisible_of_join? (h : i.join? j = some k) : i.isVisible ∧ j.isVisible ∧ k.isVisible := by
  cases i <;> cases j <;> cases h <;> exact ⟨rfl, rfl, rfl⟩

theorem join?_of_isVisible (h : i.isVisible = false) (j : Item) : i.join? j = none := by
  cases i <;> first | rfl | cases h

/-! ## One more item -/

theorem takeUp_concat (is : List Item) (j i : Item) :
    takeUp (is ++ [j]) i =
      match j.join? i with
      | some k => is ++ [k]
      | none => is ++ [j] ++ [i] := by
  unfold takeUp
  rw [List.getLast?_concat, Option.bind_some, List.dropLast_concat]

theorem takeUp_concat_some (h : j.join? i = some k) (is : List Item) :
    takeUp (is ++ [j]) i = is ++ [k] := by
  rw [takeUp_concat, h]

theorem takeUp_concat_none (h : j.join? i = none) (is : List Item) :
    takeUp (is ++ [j]) i = is ++ [j] ++ [i] := by
  rw [takeUp_concat, h]

theorem takeUp_cons_cons (j k : Item) (is : List Item) (i : Item) :
    takeUp (j :: k :: is) i = j :: takeUp (k :: is) i := by
  unfold takeUp
  rw [List.getLast?_cons_cons]
  split <;> rfl

theorem takeUp_of_forall (h : ∀ j, join? j i = none) (is : List Item) :
    takeUp is i = is ++ [i] := by
  cases is using List.reverseRecOn with
  | nil => rfl
  | append_singleton is j => exact takeUp_concat_none (h j) is

theorem map_withId_takeUp (is : List Item) (i : Item) (id : String) :
    (takeUp is i).map (·.withId id) = takeUp (is.map (·.withId id)) (i.withId id) := by
  cases is using List.reverseRecOn with
  | nil => rfl
  | append_singleton is j =>
    rw [List.map_append, List.map_singleton, takeUp_concat, takeUp_concat, join?_withId]
    cases j.join? i <;> simp

/-- Items are taken up by their kinds and not by their ids. -/
theorem map_unnamed_takeUp (h : is.map unnamed = js.map unnamed) (i : Item) (a b : String) :
    (takeUp is (i.withId a)).map unnamed = (takeUp js (i.withId b)).map unnamed := by
  have hmap := fun is a => map_withId_takeUp is (i.withId a) ""
  simp only [withId_withId] at hmap
  unfold unnamed at h ⊢
  rw [hmap, hmap, h]

/-! ## Side by side -/

theorem joinTo_cons_some (h : i.join? j = some k) (js : List Item) :
    i.joinTo (j :: js) = k :: js := by
  rw [joinTo, h]

theorem joinTo_cons_none (h : i.join? j = none) (js : List Item) :
    i.joinTo (j :: js) = i :: j :: js := by
  rw [joinTo, h]

theorem joinTo_of_forall (h : ∀ j, i.join? j = none) (js : List Item) : i.joinTo js = i :: js := by
  cases js with
  | nil => rfl
  | cons j js => exact joinTo_cons_none (h j) js

/-- It does not matter from which end the items are joined. -/
theorem joinTo_takeUp (l : Item) (js : List Item) (i : Item) :
    l.joinTo (takeUp js i) = takeUp (l.joinTo js) i := by
  match js with
  | [] =>
    cases h : l.join? i with
    | some k => exact (joinTo_cons_some h []).trans (takeUp_concat_some h []).symm
    | none => exact (joinTo_cons_none h []).trans (takeUp_concat_none h []).symm
  | [j] =>
    -- `j` is the first item and the last: it may be taken up by `l` and may itself take up `i`
    cases hji : j.join? i with
    | some k =>
      rw [show takeUp [j] i = [k] from takeUp_concat_some hji []]
      cases hlj : l.join? j with
      | some m =>
        have hassoc := join?_assoc l j i
        rw [hlj, hji, Option.bind_some, Option.bind_some] at hassoc
        obtain ⟨n, hlk⟩ : ∃ n, l.join? k = some n := by
          refine Option.ne_none_iff_exists'.mp fun hlk => ?_
          rw [join?_eq_none_left hji, hlj] at hlk
          cases hlk
        rw [joinTo_cons_some hlk, joinTo_cons_some hlj]
        exact (takeUp_concat_some (hassoc.trans hlk) []).symm
      | none =>
        rw [joinTo_cons_none hlj, joinTo_cons_none ((join?_eq_none_left hji).mpr hlj)]
        exact (takeUp_concat_some hji [l]).symm
    | none =>
      rw [show takeUp [j] i = [j, i] from takeUp_concat_none hji []]
      cases hlj : l.join? j with
      | some m =>
        rw [joinTo_cons_some hlj, joinTo_cons_some hlj]
        exact (takeUp_concat_none ((join?_eq_none_right hlj).mpr hji) []).symm
      | none =>
        rw [joinTo_cons_none hlj, joinTo_cons_none hlj]
        exact (takeUp_concat_none hji [l]).symm
  | j :: j' :: js =>
    rw [takeUp_cons_cons]
    cases h : l.join? j with
    | some k => rw [joinTo_cons_some h, joinTo_cons_some h, takeUp_cons_cons]
    | none => rw [joinTo_cons_none h, joinTo_cons_none h, takeUp_cons_cons, takeUp_cons_cons]

theorem joined_concat (is : List Item) (i : Item) : joined (is ++ [i]) = takeUp (joined is) i := by
  induction is with
  | nil => rfl
  | cons l is ih =>
    rw [List.cons_append, joined, ih, joinTo_takeUp]
    rfl

/-- Two items are taken up like the item they make together. -/
theorem takeUp_of_join? (h : i.join? j = some k) (is : List Item) :
    takeUp (takeUp is i) j = takeUp is k := by
  cases is using List.reverseRecOn with
  | nil => exact takeUp_concat_some h []
  | append_singleton is l =>
    cases hli : l.join? i with
    | some m =>
      have hassoc := join?_assoc l i j
      rw [hli, h, Option.bind_some, Option.bind_some] at hassoc
      rw [takeUp_concat_some hli, takeUp_concat, takeUp_concat, hassoc]
      cases hlk : l.join? k with
      | some n => rfl
      | none =>
        rw [join?_eq_none_left h, hli] at hlk
        cases hlk
    | none =>
      rw [takeUp_concat_none hli, takeUp_concat_some h,
        takeUp_concat_none ((join?_eq_none_left h).mpr hli)]

/-- What is taken up before the items are joined is taken up after. -/
theorem joined_takeUp (is : List Item) (i : Item) :
    joined (takeUp is i) = takeUp (joined is) i := by
  cases is using List.reverseRecOn with
  | nil => rfl
  | append_singleton is j =>
    cases h : j.join? i with
    | some k => rw [takeUp_concat_some h, joined_concat, joined_concat, takeUp_of_join? h]
    | none => rw [takeUp_concat_none h, joined_concat, joined_concat]

/-! ## Behind a log line -/

/-- The last item, if there is one, is shown. -/
def endsShown (is : List Item) : Bool := (is.map isVisible).getLast?.getD true

theorem visible_concat (hi : i.isVisible = true) (is : List Item) :
    (is ++ [i]).filter isVisible = is.filter isVisible ++ [i] := by
  rw [List.filter_append, List.filter_singleton, hi]
  rfl

theorem visible_log (is : List Item) (id line : String) :
    (is ++ [Item.log id line]).filter isVisible = is.filter isVisible := by
  rw [List.filter_append]
  exact List.append_nil _

theorem endsShown_concat (is : List Item) (i : Item) : endsShown (is ++ [i]) = i.isVisible := by
  unfold endsShown
  rw [List.map_append, List.map_singleton, List.getLast?_concat]
  rfl

/-- Behind a log line an item is added, and no other item takes it up. -/
theorem visible_takeUp (hi : i.isVisible = true) (is : List Item) :
    (takeUp is i).filter isVisible =
      if endsShown is then takeUp (is.filter isVisible) i else is.filter isVisible ++ [i] := by
  cases is using List.reverseRecOn with
  | nil => exact visible_concat hi []
  | append_singleton is j =>
    rw [endsShown_concat]
    cases hj : j.isVisible with
    | true =>
      rw [if_pos rfl, visible_concat hj]
      cases h : j.join? i with
      | some k =>
        rw [takeUp_concat_some h, takeUp_concat_some h, visible_concat (isVisible_of_join? h).2.2]
      | none =>
        rw [takeUp_concat_none h, takeUp_concat_none h, visible_concat hi, visible_concat hj]
    | false =>
      rw [takeUp_concat_none (join?_of_isVisible hj i), visible_concat hi]
      rfl

theorem endsShown_takeUp (hi : i.isVisible = true) (is : List Item) :
    endsShown (takeUp is i) = true := by
  cases is using List.reverseRecOn with
  | nil => exact hi
  | append_singleton is j =>
    cases h : j.join? i with
    | some k =>
      rw [takeUp_concat_some h, endsShown_concat]
      exact (isVisible_of_join? h).2.2
    | none =>
      rw [takeUp_concat_none h, endsShown_concat]
      exact hi

/-- In `shown` a log line keeps nothing apart. -/
theorem shown_takeUp (hi : i.isVisible = true) (is : List Item) :
    shown (takeUp is i) = takeUp (shown is) i := by
  unfold shown
  rw [visible_takeUp hi]
  split
  · exact joined_takeUp _ i
  · exact joined_concat _ i

theorem shown_log (is : List Item) (id line : String) :
    shown (is ++ [Item.log id line]) = shown is := by
  unfold shown
  rw [visible_log]

theorem isVisible_joinTo (hi : i.isVisible = true) (h : ∀ j ∈ is, j.isVisible = true) :
    ∀ j ∈ i.joinTo is, j.isVisible = true := by
  cases is with
  | nil => exact List.forall_mem_singleton.mpr hi
  | cons j js =>
    cases hij : i.join? j with
    | some k =>
      rw [joinTo_cons_some hij]
      exact List.forall_mem_cons.mpr ⟨(isVisible_of_join? hij).2.2, (List.forall_mem_cons.mp h).2⟩
    | none =>
      rw [joinTo_cons_none hij]
      exact List.forall_mem_cons.mpr ⟨hi, h⟩

theorem isVisible_joined (h : ∀ i ∈ is, i.isVisible = true) :
    ∀ i ∈ joined is, i.isVisible = true := by
  induction is with
  | nil => exact h
  | cons i is ih =>
    obtain ⟨hi, his⟩ := List.forall_mem_cons.mp h
    exact isVisible_joinTo hi (ih his)

theorem visible_shown (is : List Item) : (shown is).filter isVisible = shown is :=
  List.filter_eq_self.mpr <| isVisible_joined fun _ hi => (List.mem_filter.mp hi).2

theorem isVisible_withId (i : Item) (id : String) : (i.withId id).isVisible = i.isVisible := by
  cases i <;> rfl

theorem map_unnamed_visible (is : List Item) :
    (is.filter isVisible).map unnamed = (is.map unnamed).filter isVisible := by
  rw [List.filter_map]
  exact congrArg (fun p => (is.filter p).map unnamed) (funext fun i => (isVisible_withId i "").symm)

/-! ## Tool uses -/

/-- Changes the tool use of the call `callId`, if there is one. -/
def onUse (callId : String) (change : ToolUse → ToolUse) (is : List Item) : List Item :=
  mapFirst (Draft.isUseOf callId) (Draft.mapUse change) is

theorem onUse_cons_of_pos (h : Draft.isUseOf callId i = true) (change : ToolUse → ToolUse)
    (is : List Item) : onUse callId change (i :: is) = Draft.mapUse change i :: is :=
  mapFirst_cons_of_pos h is

theorem onUse_cons_of_neg (h : Draft.isUseOf callId i = false) (change : ToolUse → ToolUse)
    (is : List Item) : onUse callId change (i :: is) = i :: onUse callId change is :=
  mapFirst_cons_of_neg h is

theorem isVisible_of_isUseOf (h : Draft.isUseOf callId i = true) : i.isVisible = true := by
  cases i <;> first | rfl | cases h

theorem isVisible_mapUse (change : ToolUse → ToolUse) (i : Item) :
    (Draft.mapUse change i).isVisible = i.isVisible := by
  cases i <;> rfl

theorem join?_of_isUseOf (h : Draft.isUseOf callId i = true) (j : Item) :
    i.join? j = none ∧ j.join? i = none := by
  cases i <;> first | cases h | exact ⟨rfl, by cases j <;> rfl⟩

theorem isUseOf_mapUse (h : Draft.isUseOf callId i = true) (change : ToolUse → ToolUse) :
    ∃ callId', Draft.isUseOf callId' (Draft.mapUse change i) = true := by
  cases i <;> first | cases h | exact ⟨_, beq_self_eq_true _⟩

theorem isUseOf_of_join? (h : i.join? j = some k) (callId : String) :
    Draft.isUseOf callId i = false ∧ Draft.isUseOf callId j = false ∧
      Draft.isUseOf callId k = false := by
  cases i <;> cases j <;> cases h <;> exact ⟨rfl, rfl, rfl⟩

theorem any_joinTo (callId : String) (i : Item) (js : List Item) :
    (i.joinTo js).any (Draft.isUseOf callId) = (i :: js).any (Draft.isUseOf callId) := by
  cases js with
  | nil => rfl
  | cons j js =>
    cases h : i.join? j with
    | none => rw [joinTo_cons_none h]
    | some k =>
      obtain ⟨hi, hj, hk⟩ := isUseOf_of_join? h callId
      rw [joinTo_cons_some h, List.any_cons, List.any_cons, List.any_cons, hi, hj, hk]
      rfl

theorem any_joined (callId : String) (is : List Item) :
    (joined is).any (Draft.isUseOf callId) = is.any (Draft.isUseOf callId) := by
  induction is with
  | nil => rfl
  | cons i is ih => rw [joined, any_joinTo, List.any_cons, List.any_cons, ih]

theorem joinTo_onUse (hi : Draft.isUseOf callId i = false) (change : ToolUse → ToolUse)
    (js : List Item) :
    i.joinTo (onUse callId change js) = onUse callId change (i.joinTo js) := by
  cases js with
  | nil => exact (onUse_cons_of_neg hi change []).symm
  | cons j js =>
    cases hj : Draft.isUseOf callId j with
    | true =>
      obtain ⟨_, huse⟩ := isUseOf_mapUse hj change
      rw [onUse_cons_of_pos hj, joinTo_cons_none (join?_of_isUseOf huse i).2,
        joinTo_cons_none (join?_of_isUseOf hj i).2, onUse_cons_of_neg hi, onUse_cons_of_pos hj]
    | false =>
      rw [onUse_cons_of_neg hj]
      cases h : i.join? j with
      | some k =>
        rw [joinTo_cons_some h, joinTo_cons_some h,
          onUse_cons_of_neg (isUseOf_of_join? h callId).2.2]
      | none =>
        rw [joinTo_cons_none h, joinTo_cons_none h, onUse_cons_of_neg hi, onUse_cons_of_neg hj]

/-- A tool use is joined to nothing, so it is changed where it stands. -/
theorem joined_onUse (callId : String) (change : ToolUse → ToolUse) (is : List Item) :
    joined (onUse callId change is) = onUse callId change (joined is) := by
  induction is with
  | nil => rfl
  | cons i is ih =>
    cases hi : Draft.isUseOf callId i with
    | true =>
      obtain ⟨_, huse⟩ := isUseOf_mapUse hi change
      rw [onUse_cons_of_pos hi, joined, joined,
        joinTo_of_forall fun j => (join?_of_isUseOf huse j).1,
        joinTo_of_forall fun j => (join?_of_isUseOf hi j).1, onUse_cons_of_pos hi]
    | false => rw [onUse_cons_of_neg hi, joined, ih, joinTo_onUse hi, joined]

theorem any_map_unnamed (callId : String) (is : List Item) :
    (is.map unnamed).any (Draft.isUseOf callId) = is.any (Draft.isUseOf callId) := by
  rw [List.any_map]
  exact congrArg is.any (funext (Draft.isUseOf_unnamed callId))

theorem any_visible (callId : String) (is : List Item) :
    (is.filter isVisible).any (Draft.isUseOf callId) = is.any (Draft.isUseOf callId) := by
  rw [List.any_filter]
  refine congrArg is.any (funext fun i => ?_)
  cases i <;> rfl

theorem map_unnamed_onUse (h : is.map unnamed = js.map unnamed) (callId : String)
    (change : ToolUse → ToolUse) :
    (onUse callId change is).map unnamed =
      (onUse callId change js).map unnamed := by
  unfold onUse
  rw [← mapFirst_map (Draft.isUseOf_unnamed callId) (Draft.mapUse_unnamed change), h,
    mapFirst_map (Draft.isUseOf_unnamed callId) (Draft.mapUse_unnamed change)]

theorem visible_onUse (callId : String) (change : ToolUse → ToolUse) (is : List Item) :
    (onUse callId change is).filter isVisible =
      onUse callId change (is.filter isVisible) :=
  filter_mapFirst (isVisible_mapUse change) (fun _ => isVisible_of_isUseOf) is

theorem endsShown_onUse (callId : String) (change : ToolUse → ToolUse) (is : List Item) :
    endsShown (onUse callId change is) = endsShown is := by
  unfold endsShown onUse
  rw [map_mapFirst (isVisible_mapUse change)]

/-! ## Kept apart -/

theorem length_joinTo_le (i : Item) (js : List Item) : (i.joinTo js).length ≤ js.length + 1 := by
  cases js with
  | nil => exact Nat.le_refl _
  | cons j js =>
    cases h : i.join? j with
    | some k =>
      rw [joinTo_cons_some h]
      exact Nat.le_succ _
    | none =>
      rw [joinTo_cons_none h]
      exact Nat.le_refl _

theorem length_joined_le (is : List Item) : (joined is).length ≤ is.length := by
  induction is with
  | nil => exact Nat.le_refl _
  | cons i is ih => exact Nat.le_trans (length_joinTo_le i _) (Nat.succ_le_succ ih)

/-- No two items that stand side by side would be put together. -/
def KeptApart (is : List Item) : Prop := is.IsChain fun i j => i.join? j = none

theorem joined_of_keptApart (h : KeptApart is) : joined is = is := by
  induction is with
  | nil => rfl
  | cons i is ih =>
    rw [joined, ih h.of_cons]
    cases is with
    | nil => rfl
    | cons j js => exact joinTo_cons_none (List.isChain_cons_cons.mp h).1 js

theorem keptApart_of_length (h : (joined is).length = is.length) : KeptApart is := by
  induction is with
  | nil => exact .nil
  | cons i is ih =>
    have hto := length_joinTo_le i (joined is)
    have hle := length_joined_le is
    have his : KeptApart is := by
      refine ih ?_
      rw [joined, List.length_cons] at h
      omega
    rw [joined, joined_of_keptApart his] at h
    cases is with
    | nil => exact .singleton i
    | cons j js =>
      refine List.isChain_cons_cons.mpr ⟨?_, his⟩
      cases hij : i.join? j with
      | none => rfl
      | some k =>
        rw [joinTo_cons_some hij] at h
        simp at h

theorem keptApart_of_joined (h : joined is = is) : KeptApart is :=
  keptApart_of_length (congrArg List.length h)

theorem KeptApart.takeUp (h : KeptApart is) (i : Item) : KeptApart (takeUp is i) :=
  keptApart_of_joined (by rw [joined_takeUp, joined_of_keptApart h])

theorem KeptApart.onUse (h : KeptApart is) (callId : String) (change : ToolUse → ToolUse) :
    KeptApart (onUse callId change is) :=
  keptApart_of_joined (by rw [joined_onUse, joined_of_keptApart h])

end Item

end PromptStudio
