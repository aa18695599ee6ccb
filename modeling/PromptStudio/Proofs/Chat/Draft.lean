import Mathlib.Data.List.Basic
import PromptStudio.Proofs.Chat.Ids

/-!
# Edits of a draft

In the middle of a turn an event may add items, change the last item or change tool uses. `IsEdit`
is what all these edits have in common: they do not look at ids (`Draft.Alike`), and they keep every
item in its place and give new items the ids that come next (`Draft.Advances`). `isEdit_applySite`
says that every event in the middle of a turn is such an edit.
-/

namespace PromptStudio

theorem map_prefix_of_getElem? {α β : Type} {f : α → β} {xs ys : List α}
    (h : ∀ (n : Nat) x, xs[n]? = some x → ∃ y, ys[n]? = some y ∧ f y = f x) :
    xs.map f <+: ys.map f := by
  rw [List.prefix_iff_getElem?]
  intro n hn
  rw [List.length_map] at hn
  obtain ⟨y, hy, hf⟩ := h n _ (List.getElem?_eq_getElem hn)
  rw [List.getElem?_map, hy, List.getElem_map]
  exact congrArg some hf

/-! ## Items without their ids -/

namespace Item

variable {i j k : Item}

/-- The item with another id. -/
def withId (id : String) : Item → Item
  | .text _ words => .text id words
  | .code _ change => .code id change
  | .reasoning _ words => .reasoning id words
  | .progress _ percent => .progress id percent
  | .toolUse _ use => .toolUse id use
  | .log _ line => .log id line
  | .preview _ link => .preview id link

/-- The item without its id. -/
def unnamed (i : Item) : Item := i.withId ""

theorem withId_withId (i : Item) (a b : String) : (i.withId a).withId b = i.withId b := by
  cases i <;> rfl

theorem withId_id (i : Item) : i.withId i.id = i := by
  cases i <;> rfl

@[simp] theorem id_withId (i : Item) (id : String) : (i.withId id).id = id := by
  cases i <;> rfl

@[simp] theorem unnamed_withId (i : Item) (id : String) : (i.withId id).unnamed = i.unnamed :=
  withId_withId i id ""

theorem eq_withId_of_unnamed (h : i.unnamed = j.unnamed) : ∃ id, j = i.withId id := by
  refine ⟨j.id, ?_⟩
  calc j = j.withId j.id := (withId_id j).symm
    _ = j.unnamed.withId j.id := (withId_withId j "" j.id).symm
    _ = i.unnamed.withId j.id := by rw [h]
    _ = i.withId j.id := withId_withId i "" j.id

/-- Items are equal that are equal without their ids and have equal ids. -/
theorem eq_of_map_unnamed {is js : List Item} (h : is.map unnamed = js.map unnamed)
    (hid : is.map id = js.map id) : is = js := by
  induction is generalizing js with
  | nil => exact (List.map_eq_nil_iff.mp h.symm).symm
  | cons i is ih =>
    cases js with
    | nil => cases h
    | cons j js =>
      obtain ⟨hij, hrest⟩ := List.cons_eq_cons.mp h
      obtain ⟨hhead, htail⟩ := List.cons_eq_cons.mp hid
      obtain ⟨id, rfl⟩ := eq_withId_of_unnamed hij
      rw [id_withId] at hhead
      rw [← hhead, withId_id, ih hrest htail]

/-! ## How items grow -/

/-- The item is as it was, save that a tool use may have been announced again or given a status. -/
inductive Stays : Item → Item → Prop
  | same (i : Item) : Stays i i
  | toolUse (id : String) {use use' : ToolUse} (call : use'.callId = use.callId)
      (status : use.status.isSome → use'.status.isSome) : Stays (.toolUse id use) (.toolUse id use')

/-- What may become of the last item: text grows, reasoning and progress are replaced. -/
inductive Grows : Item → Item → Prop
  | stays {i j : Item} (h : Stays i j) : Grows i j
  | text (id before more : String) : Grows (.text id before) (.text id (before ++ more))
  | reasoning (id before after : String) : Grows (.reasoning id before) (.reasoning id after)
  | progress (id : String) (before after : Nat) : Grows (.progress id before) (.progress id after)

theorem Stays.trans (h : i.Stays j) (h' : j.Stays k) : i.Stays k := by
  cases h with
  | same => exact h'
  | toolUse id hcall hstatus =>
    cases h' with
    | same => exact .toolUse id hcall hstatus
    | toolUse _ hcall' hstatus' => exact .toolUse id (hcall'.trans hcall) (hstatus' ∘ hstatus)

theorem Grows.trans (h : i.Grows j) (h' : j.Grows k) : i.Grows k := by
  cases h' with
  | stays hjk =>
    cases h with
    | stays hij => exact .stays (hij.trans hjk)
    | text _ _ _ => cases hjk; exact .text _ _ _
    | reasoning _ _ _ => cases hjk; exact .reasoning _ _ _
    | progress _ _ _ => cases hjk; exact .progress _ _ _
  | text id _ more =>
    cases h with
    | stays hij => cases hij; exact .text _ _ _
    | text _ before _ => rw [String.append_assoc]; exact .text _ _ _
  | reasoning _ _ _ =>
    cases h with
    | stays hij => cases hij; exact .reasoning _ _ _
    | reasoning _ _ _ => exact .reasoning _ _ _
  | progress _ _ _ =>
    cases h with
    | stays hij => cases hij; exact .progress _ _ _
    | progress _ _ _ => exact .progress _ _ _

theorem Stays.id_eq (h : i.Stays j) : j.id = i.id := by
  cases h <;> rfl

theorem Grows.id_eq (h : i.Grows j) : j.id = i.id := by
  cases h with
  | stays h => exact h.id_eq
  | text _ _ _ | reasoning _ _ _ | progress _ _ _ => rfl

/-- All items are still in their places. The last may have grown; the others have stayed. -/
def AllGrow (is js : List Item) : Prop :=
  ∀ n i, is[n]? = some i →
    ∃ j, js[n]? = some j ∧ i.Grows j ∧ (n + 1 < is.length → i.Stays j)

variable {is js ks : List Item}

theorem allGrow_append (is js : List Item) : AllGrow is (is ++ js) := by
  intro n i hi
  obtain ⟨hn, _⟩ := List.getElem?_eq_some_iff.mp hi
  rw [List.getElem?_append_left hn]
  exact ⟨i, hi, .stays (.same i), fun _ => .same i⟩

theorem AllGrow.refl (is : List Item) : AllGrow is is := by
  simpa using allGrow_append is []

theorem AllGrow.length_le (h : AllGrow is js) : is.length ≤ js.length := by
  by_contra hlt
  have hn : js.length < is.length := Nat.lt_of_not_le hlt
  obtain ⟨j, hj, _⟩ := h js.length _ (List.getElem?_eq_getElem hn)
  rw [List.getElem?_eq_none (Nat.le_refl _)] at hj
  cases hj

theorem AllGrow.trans (h : AllGrow is js) (h' : AllGrow js ks) : AllGrow is ks := by
  intro n i hi
  obtain ⟨j, hj, hgrows, hstays⟩ := h n i hi
  obtain ⟨k, hk, hgrows', hstays'⟩ := h' n j hj
  refine ⟨k, hk, hgrows.trans hgrows', fun hn => ?_⟩
  exact (hstays hn).trans (hstays' (Nat.lt_of_lt_of_le hn h.length_le))

theorem allGrow_concat (hij : i.Grows j) : AllGrow (is ++ [i]) (is ++ [j]) := by
  intro n x hx
  obtain ⟨hn, _⟩ := List.getElem?_eq_some_iff.mp hx
  rw [List.length_append, List.length_singleton] at hn
  rcases Nat.lt_succ_iff_lt_or_eq.mp hn with hlt | rfl
  · rw [List.getElem?_append_left hlt] at hx ⊢
    exact ⟨x, hx, .stays (.same x), fun _ => .same x⟩
  · rw [List.getElem?_concat_length] at hx ⊢
    obtain rfl := Option.some.inj hx
    refine ⟨j, rfl, hij, fun hlast => ?_⟩
    rw [List.length_append, List.length_singleton] at hlast
    exact absurd hlast (Nat.lt_irrefl _)

theorem AllGrow.prefix_id (h : AllGrow is js) : is.map id <+: js.map id := by
  refine map_prefix_of_getElem? fun n i hi => ?_
  obtain ⟨j, hj, hgrows, _⟩ := h n i hi
  exact ⟨j, hj, hgrows.id_eq⟩

end Item

/-- The entry without its id and those of its items. -/
def Entry.unnamed (e : Entry) : Entry :=
  { e with id := "", content := e.content.map Item.unnamed }

theorem Entry.unnamed_inj {e e' : Entry} : e.unnamed = e'.unnamed ↔
    e.kind = e'.kind ∧ e.role = e'.role ∧
      e.content.map Item.unnamed = e'.content.map Item.unnamed ∧ e.mode = e'.mode ∧
      e.parent = e'.parent ∧ e.error = e'.error := by
  simp [Entry.unnamed]

/-! ## The first element of a kind -/

section MapFirst

variable {α β : Type} {p q : α → Bool} {f : α → α} {x : α} {xs : List α} {n : Nat}

theorem mapFirst_cons_of_pos (h : p x = true) (xs : List α) :
    mapFirst p f (x :: xs) = f x :: xs := by
  rw [mapFirst, if_pos h]

theorem mapFirst_cons_of_neg (h : p x = false) (xs : List α) :
    mapFirst p f (x :: xs) = x :: mapFirst p f xs := by
  rw [mapFirst, if_neg (by rw [h]; exact Bool.false_ne_true)]

theorem mapFirst_map {g : α → α} (hp : ∀ x, p (g x) = p x) (hf : ∀ x, f (g x) = g (f x))
    (xs : List α) : mapFirst p f (xs.map g) = (mapFirst p f xs).map g := by
  induction xs with
  | nil => rfl
  | cons x xs ih =>
    rw [List.map_cons, mapFirst, mapFirst, hp, hf, ih]
    split <;> rfl

/-- What a change leaves alone, it leaves alone in the whole list. -/
theorem map_mapFirst {g : α → β} (hf : ∀ x, g (f x) = g x) (xs : List α) :
    (mapFirst p f xs).map g = xs.map g := by
  induction xs with
  | nil => rfl
  | cons x xs ih =>
    rw [mapFirst]
    split
    · rw [List.map_cons, List.map_cons, hf]
    · rw [List.map_cons, List.map_cons, ih]

theorem filterMap_mapFirst {g : α → Option β} (hf : ∀ x, g (f x) = g x) (xs : List α) :
    (mapFirst p f xs).filterMap g = xs.filterMap g := by
  have h := congrArg (List.filterMap id) (map_mapFirst (p := p) hf xs)
  rwa [List.filterMap_map, List.filterMap_map] at h

/-- Among the elements that satisfy `q`, the same one is changed. -/
theorem filter_mapFirst (hf : ∀ x, q (f x) = q x) (hq : ∀ x, p x = true → q x = true)
    (xs : List α) : (mapFirst p f xs).filter q = mapFirst p f (xs.filter q) := by
  induction xs with
  | nil => rfl
  | cons x xs ih =>
    cases hp : p x with
    | true =>
      rw [mapFirst_cons_of_pos hp, List.filter_cons_of_pos ((hf x).trans (hq x hp)),
        List.filter_cons_of_pos (hq x hp), mapFirst_cons_of_pos hp]
    | false =>
      rw [mapFirst_cons_of_neg hp, List.filter_cons, List.filter_cons, ih]
      split
      · rw [mapFirst_cons_of_neg hp]
      · rfl

theorem getElem?_mapFirst (hx : xs[n]? = some x) :
    (mapFirst p f xs)[n]? = some x ∨ (mapFirst p f xs)[n]? = some (f x) := by
  induction xs generalizing n with
  | nil => cases hx
  | cons y ys ih =>
    rw [mapFirst]
    cases n with
    | zero =>
      rw [List.getElem?_cons_zero] at hx
      obtain rfl := Option.some.inj hx
      split
      · exact .inr rfl
      · exact .inl rfl
    | succ n =>
      rw [List.getElem?_cons_succ] at hx
      split
      · exact .inl hx
      · exact ih hx

end MapFirst

/-! ## Changes of the last item -/

namespace Item

/-- Adds to a text. -/
def extendText? (words : String) : Item → Option Item
  | .text id before => some (.text id (before ++ words))
  | _ => none

/-- Sets a percentage, if one is given. -/
def setPercent? (percent : Option Nat) : Item → Option Item
  | .progress id before => some (.progress id (percent.getD before))
  | _ => none

/-- Replaces what is shown of the reasoning. -/
def setWords? (words : String) : Item → Option Item
  | .reasoning id _ => some (.reasoning id words)
  | _ => none

end Item

namespace Draft

variable {d d' d'' : Draft} {make : String → Item} {merge : Item → Option Item} {i j : Item}
  {f g : Draft → Draft} {callId : String} {change : ToolUse → ToolUse}

/-! ## Drafts that differ in ids -/

/-- The drafts hold the same items up to their ids. -/
def Alike (d d' : Draft) : Prop := d.items.map Item.unnamed = d'.items.map Item.unnamed

theorem Alike.add (h : d.Alike d') (hmake : ∀ a b, (make a).withId b = make b) :
    (d.add make).Alike (d'.add make) := by
  have hunnamed : ∀ a, (make a).unnamed = make "" := fun a => hmake a ""
  show (d.items ++ [_]).map Item.unnamed = (d'.items ++ [_]).map Item.unnamed
  rw [List.map_append, List.map_append, h, List.map_singleton, List.map_singleton, hunnamed,
    hunnamed]

theorem Alike.setLast (h : d.Alike d') (hij : i.unnamed = j.unnamed) :
    (d.setLast i).Alike (d'.setLast j) := by
  show (d.items.dropLast ++ [i]).map Item.unnamed = (d'.items.dropLast ++ [j]).map Item.unnamed
  rw [List.map_append, List.map_append, List.map_dropLast, List.map_dropLast, h]
  exact congrArg (_ ++ [·]) hij

/-- The last items differ in their ids at most. -/
theorem Alike.last (h : d.Alike d') :
    (d.items.getLast? = none ∧ d'.items.getLast? = none) ∨
      ∃ i id, d.items.getLast? = some i ∧ d'.items.getLast? = some (i.withId id) := by
  have hlast := congrArg List.getLast? h
  rw [List.getLast?_map, List.getLast?_map] at hlast
  cases hi : d.items.getLast? with
  | none =>
    rw [hi] at hlast
    exact .inl ⟨rfl, Option.map_eq_none_iff.mp hlast.symm⟩
  | some i =>
    rw [hi] at hlast
    obtain ⟨j, hj, hij⟩ := Option.map_eq_some_iff.mp hlast.symm
    obtain ⟨id, rfl⟩ := Item.eq_withId_of_unnamed hij.symm
    exact .inr ⟨i, id, rfl, hj⟩

theorem isUseOf_unnamed (callId : String) (i : Item) :
    isUseOf callId i.unnamed = isUseOf callId i := by
  cases i <;> rfl

theorem mapUse_unnamed (f : ToolUse → ToolUse) (i : Item) :
    mapUse f i.unnamed = (mapUse f i).unnamed := by
  cases i <;> rfl

/-- Tool uses are found by their calls, not by their ids. -/
theorem Alike.onUse (h : d.Alike d') (callId : String) (change : ToolUse → ToolUse) :
    (d.onUse callId change).Alike (d'.onUse callId change) := by
  show (mapFirst _ _ d.items).map Item.unnamed = (mapFirst _ _ d'.items).map Item.unnamed
  rw [← mapFirst_map (isUseOf_unnamed callId) (mapUse_unnamed change), h,
    mapFirst_map (isUseOf_unnamed callId) (mapUse_unnamed change)]

/-! ## Drafts that have got further -/

/-- Every item is still in its place and has its id, and new items have the ids handed out next. -/
structure Advances (d d' : Draft) : Prop where
  mode_eq : d'.mode = d.mode
  ids : ∃ k, d'.issued = d.issued + k ∧
    d'.items.map Item.id = d.items.map Item.id ++ idsAfter d.mode d.issued k
  grow : Item.AllGrow d.items d'.items

theorem Advances.refl (d : Draft) : d.Advances d where
  mode_eq := rfl
  ids := ⟨0, rfl, (List.append_nil _).symm⟩
  grow := .refl _

theorem Advances.trans (h : d.Advances d') (h' : d'.Advances d'') : d.Advances d'' where
  mode_eq := h'.mode_eq.trans h.mode_eq
  ids := by
    obtain ⟨k, hissued, hids⟩ := h.ids
    obtain ⟨l, hissued', hids'⟩ := h'.ids
    refine ⟨k + l, by omega, ?_⟩
    rw [hids', hids, hissued, h.mode_eq, idsAfter_add, List.append_assoc]
  grow := h.grow.trans h'.grow

theorem advances_add (d : Draft) (hmake : ∀ a b, (make a).withId b = make b) :
    d.Advances (d.add make) where
  mode_eq := rfl
  ids := by
    have hid : ∀ a, (make a).id = a := by
      intro a
      rw [← hmake a a, Item.id_withId]
    refine ⟨1, rfl, ?_⟩
    show (d.items ++ [_]).map Item.id = _
    rw [List.map_append, List.map_singleton, hid]
    rfl
  grow := Item.allGrow_append _ _

theorem advances_setLast (hi : d.items.getLast? = some i) (hij : i.Grows j) :
    d.Advances (d.setLast j) := by
  obtain ⟨is, his⟩ := List.getLast?_eq_some_iff.mp hi
  have hset : (d.setLast j).items = is ++ [j] := by
    unfold setLast
    rw [his, List.dropLast_concat]
  refine ⟨rfl, ⟨0, rfl, ?_⟩, ?_⟩
  · rw [hset, his, List.map_append, List.map_append, List.map_singleton, List.map_singleton,
      hij.id_eq]
    exact (List.append_nil _).symm
  · rw [hset, his]
    exact Item.allGrow_concat hij

/-- A change of tool uses that keeps their calls and loses no status. -/
def Harmless (change : ToolUse → ToolUse) : Prop :=
  ∀ use, (change use).callId = use.callId ∧ (use.status.isSome → (change use).status.isSome)

theorem stays_mapUse (h : Harmless change) (i : Item) : i.Stays (mapUse change i) := by
  cases i with
  | toolUse id use => exact .toolUse id (h use).1 (h use).2
  | text _ _ | code _ _ | reasoning _ _ | progress _ _ | log _ _ | preview _ _ => exact .same _

theorem advances_onUse (d : Draft) (callId : String) (h : Harmless change) :
    d.Advances (d.onUse callId change) where
  mode_eq := rfl
  ids := by
    refine ⟨0, rfl, ?_⟩
    show (mapFirst _ _ d.items).map Item.id = _
    rw [map_mapFirst fun i => (stays_mapUse h i).id_eq]
    exact (List.append_nil _).symm
  grow n i hi := by
    rcases getElem?_mapFirst (p := isUseOf callId) (f := mapUse change) hi with hsame | huse
    · exact ⟨i, hsame, .stays (.same i), fun _ => .same i⟩
    · exact ⟨_, huse, .stays (stays_mapUse h i), fun _ => stays_mapUse h i⟩

/-! ## Edits -/

/-- A change of drafts that does not look at ids and only gets further. -/
structure IsEdit (f : Draft → Draft) : Prop where
  alike : ∀ d d' : Draft, d.Alike d' → (f d).Alike (f d')
  advances : ∀ d : Draft, d.Advances (f d)

theorem isEdit_id : IsEdit fun d => d := ⟨fun _ _ h => h, Advances.refl⟩

theorem isEdit_foldl {α : Type} {f : Draft → α → Draft} (h : ∀ a, IsEdit (f · a)) (as : List α) :
    IsEdit fun d => as.foldl f d := by
  induction as with
  | nil => exact isEdit_id
  | cons a as ih =>
    exact ⟨fun d d' hd => ih.alike _ _ ((h a).alike d d' hd),
      fun d => ((h a).advances d).trans (ih.advances _)⟩

theorem isEdit_add (hmake : ∀ a b, (make a).withId b = make b) : IsEdit (·.add make) :=
  ⟨fun _ _ h => h.add hmake, fun d => advances_add d hmake⟩

/-- Changes the last item where `merge` says how, and adds an item where it does not. -/
def amend (d : Draft) (merge : Item → Option Item) (make : String → Item) : Draft :=
  match d.items.getLast?.bind merge with
  | some i => d.setLast i
  | none => d.add make

theorem amend_cases (d : Draft) (merge : Item → Option Item) (make : String → Item) :
    (∃ is i j, d.items = is ++ [i] ∧ merge i = some j ∧
      d.amend merge make = { d with items := is ++ [j] }) ∨
      d.items.getLast?.bind merge = none ∧ d.amend merge make = d.add make := by
  unfold amend
  cases hj : d.items.getLast?.bind merge with
  | none => exact .inr ⟨rfl, rfl⟩
  | some j =>
    obtain ⟨i, hi, hmerge⟩ := Option.bind_eq_some_iff.mp hj
    obtain ⟨is, his⟩ := List.getLast?_eq_some_iff.mp hi
    refine .inl ⟨is, i, j, his, hmerge, ?_⟩
    unfold setLast
    rw [his, List.dropLast_concat]

/-- What is done to the last item depends on its kind, not on its id. -/
theorem isEdit_amend (hgrows : ∀ i j, merge i = some j → i.Grows j)
    (hid : ∀ i id, merge (i.withId id) = (merge i).map (·.withId id))
    (hmake : ∀ a b, (make a).withId b = make b) : IsEdit (·.amend merge make) where
  alike d d' h := by
    unfold amend
    rcases h.last with ⟨hi, hi'⟩ | ⟨i, id, hi, hi'⟩
    · rw [hi, hi']
      exact h.add hmake
    · rw [hi, hi', Option.bind_some, Option.bind_some, hid]
      cases merge i with
      | none => exact h.add hmake
      | some j => exact h.setLast (Item.unnamed_withId j id).symm
  advances d := by
    unfold amend
    cases hi : d.items.getLast? with
    | none => exact advances_add d hmake
    | some i =>
      rw [Option.bind_some]
      cases hj : merge i with
      | none => exact advances_add d hmake
      | some j => exact advances_setLast hi (hgrows i j hj)

theorem appendText_eq_amend (d : Draft) (words : String) :
    d.appendText words = d.amend (Item.extendText? words) (.text · words) := by
  unfold appendText amend
  cases d.items.getLast? with
  | none => rfl
  | some i => cases i <;> rfl

theorem setProgress_eq_amend (d : Draft) (percent : Option Nat) :
    d.setProgress percent =
      d.amend (Item.setPercent? percent) (.progress · (percent.getD 0)) := by
  unfold setProgress amend
  cases d.items.getLast? with
  | none => rfl
  | some i => cases i <;> rfl

theorem setReasoning_eq_amend (d : Draft) (words : String) :
    d.setReasoning words = d.amend (Item.setWords? words) (.reasoning · words) := by
  unfold setReasoning amend
  cases d.items.getLast? with
  | none => rfl
  | some i => cases i <;> rfl

theorem isEdit_appendText (words : String) : IsEdit (·.appendText words) := by
  simp only [appendText_eq_amend]
  refine isEdit_amend (fun i j hij => ?_) (fun i id => ?_) fun _ _ => rfl
  · cases i with
    | text id before => obtain rfl := Option.some.inj hij; exact .text _ _ _
    | _ => cases hij
  · cases i <;> rfl

theorem isEdit_setProgress (percent : Option Nat) : IsEdit (·.setProgress percent) := by
  simp only [setProgress_eq_amend]
  refine isEdit_amend (fun i j hij => ?_) (fun i id => ?_) fun _ _ => rfl
  · cases i with
    | progress id before => obtain rfl := Option.some.inj hij; exact .progress _ _ _
    | _ => cases hij
  · cases i <;> rfl

theorem isEdit_setReasoning (words : String) : IsEdit (·.setReasoning words) := by
  simp only [setReasoning_eq_amend]
  refine isEdit_amend (fun i j hij => ?_) (fun i id => ?_) fun _ _ => rfl
  · cases i with
    | reasoning id before => obtain rfl := Option.some.inj hij; exact .reasoning _ _ _
    | _ => cases hij
  · cases i <;> rfl

theorem isEdit_onUse (callId : String) (h : Harmless change) : IsEdit (·.onUse callId change) :=
  ⟨fun _ _ hd => hd.onUse callId change, fun d => advances_onUse d callId h⟩

/-- A call announced again changes its tool use, whatever ids the items have. -/
theorem isEdit_recordCall (c : ToolCall) : IsEdit (·.recordCall c) where
  alike d d' h := by
    have hknown : d.items.any (isUseOf c.callId) = d'.items.any (isUseOf c.callId) := by
      have hany := congrArg (List.any · (isUseOf c.callId)) h
      simpa [Function.comp_def, isUseOf_unnamed] using hany
    unfold recordCall
    rw [hknown]
    split
    · exact h.onUse _ _
    · exact h.add fun _ _ => rfl
  advances d := by
    unfold recordCall
    split
    · exact advances_onUse d c.callId fun _ => ⟨rfl, id⟩
    · exact advances_add d fun _ _ => rfl

theorem isEdit_applySite (e : SiteEvent) : IsEdit (·.applySite e) := by
  cases e with
  | delta content => exact isEdit_appendText content
  | toolCall calls => exact isEdit_foldl isEdit_recordCall calls
  | toolOutput callId status => exact isEdit_onUse callId fun _ => ⟨rfl, fun _ => rfl⟩
  | progress stage _ => exact isEdit_setProgress _
  | log content =>
    have hmake : ∀ a b, (Item.log a content).withId b = .log b content := fun _ _ => rfl
    exact isEdit_add hmake
  | deployed url message =>
    have hmake : ∀ a b, (Item.preview a ⟨url, message⟩).withId b = .preview b ⟨url, message⟩ :=
      fun _ _ => rfl
    exact isEdit_add hmake
  | start _ _ | ping _ | done _ | error _ _ => exact isEdit_id

end Draft

end PromptStudio
