import PromptStudio.Proofs.Chat.ToolUses

/-!
# Events that repeat what is shown

An event in the middle of a turn may say what the draft shows already (`Draft.Repeats`), and these
are all events that leave its items as they are (`items_applySite_eq_iff`). Of the calls that an
event announces several may bear one id. Then the last one counts: the others are recorded in
between, but nothing is left of them (`foldl_recordCall_superseded`).
-/

namespace PromptStudio

section MapFirst

variable {α : Type} {p q : α → Bool} {f g : α → α}

theorem mapFirst_eq_self_iff {xs : List α} :
    mapFirst p f xs = xs ↔ ∀ x, xs.find? p = some x → f x = x := by
  induction xs with
  | nil => simp [mapFirst]
  | cons x xs ih =>
    cases hx : p x with
    | true => simp [mapFirst_cons_of_pos hx, hx]
    | false => simp [mapFirst_cons_of_neg hx, hx, ih]

theorem find?_mapFirst_self (hp : ∀ x, p (f x) = p x) (xs : List α) :
    (mapFirst p f xs).find? p = (xs.find? p).map f := by
  induction xs with
  | nil => rfl
  | cons x xs ih =>
    cases hx : p x with
    | true => simp [mapFirst_cons_of_pos hx, hx, hp]
    | false => simp [mapFirst_cons_of_neg hx, hx, ih]

/-- An element is found by what the change leaves alone, unless it is the one that is changed. -/
theorem find?_mapFirst_of_disjoint (hq : ∀ x, q (f x) = q x) (h : ∀ x, p x = true → q x = false)
    (xs : List α) : (mapFirst p f xs).find? q = xs.find? q := by
  induction xs with
  | nil => rfl
  | cons x xs ih =>
    cases hx : p x with
    | true => simp [mapFirst_cons_of_pos hx, hq, h x hx]
    | false => simp [mapFirst_cons_of_neg hx, List.find?_cons, ih]

/-- Of two changes of the same element the second counts, if it does not look at the first. -/
theorem mapFirst_mapFirst (hp : ∀ x, p (f x) = p x) (hg : ∀ x, g (f x) = g x) (xs : List α) :
    mapFirst p g (mapFirst p f xs) = mapFirst p g xs := by
  induction xs with
  | nil => rfl
  | cons x xs ih =>
    cases hx : p x with
    | true => rw [mapFirst_cons_of_pos hx, mapFirst_cons_of_pos ((hp x).trans hx), hg,
        mapFirst_cons_of_pos hx]
    | false => rw [mapFirst_cons_of_neg hx, mapFirst_cons_of_neg hx, mapFirst_cons_of_neg hx, ih]

/-- Changes of different elements do not get in each other's way. -/
theorem mapFirst_comm (hf : ∀ x, q (f x) = q x) (hg : ∀ x, p (g x) = p x)
    (h : ∀ x, p x = true → q x = false) (xs : List α) :
    mapFirst q g (mapFirst p f xs) = mapFirst p f (mapFirst q g xs) := by
  induction xs with
  | nil => rfl
  | cons x xs ih =>
    cases hp : p x with
    | true =>
      have hq := h x hp
      rw [mapFirst_cons_of_pos hp, mapFirst_cons_of_neg ((hf x).trans hq), mapFirst_cons_of_neg hq,
        mapFirst_cons_of_pos hp]
    | false =>
      rw [mapFirst_cons_of_neg hp]
      cases hq : q x with
      | true => rw [mapFirst_cons_of_pos hq, mapFirst_cons_of_pos hq,
          mapFirst_cons_of_neg ((hg x).trans hp)]
      | false => rw [mapFirst_cons_of_neg hq, mapFirst_cons_of_neg hq, mapFirst_cons_of_neg hp, ih]

end MapFirst

/-! ## Drafts -/

namespace Draft

variable {d d' : Draft} {c c' : ToolCall} {cs : List ToolCall} {callId : String}
  {change : ToolUse → ToolUse} {merge : Item → Option Item} {make : String → Item}

/-- The tool use of a call. -/
def use? (d : Draft) (callId : String) : Option ToolUse := d.uses.find? (·.callId == callId)

/-- The draft shows the call as it is announced. -/
def ShowsCall (d : Draft) (c : ToolCall) : Prop :=
  ∃ use, d.use? c.callId = some use ∧ use.tool = c.tool ∧ use.input = c.args

/-- The draft shows all calls as they are announced last. -/
def ShowsCalls (d : Draft) (calls : List ToolCall) : Prop :=
  ∀ before c after, calls = before ++ c :: after → (∀ c' ∈ after, c'.callId ≠ c.callId) →
    d.ShowsCall c

/-- The draft shows what the event says. -/
def Repeats (d : Draft) : SiteEvent → Prop
  | .delta words => words = "" ∧ ∃ id before, d.items.getLast? = some (.text id before)
  | .toolCall calls => d.ShowsCalls calls
  | .toolOutput callId status => ∀ use, d.use? callId = some use → use.status = some status
  | .progress stage _ => ∃ id percent, d.items.getLast? = some (.progress id percent) ∧
      (stagePercent? stage).getD percent = percent
  | _ => False

/-! ### The last item -/

theorem items_add_ne (d : Draft) (make : String → Item) : (d.add make).items ≠ d.items := by
  intro h
  exact List.cons_ne_nil _ _ (List.append_right_eq_self.mp h)

theorem items_amend_eq_iff :
    (d.amend merge make).items = d.items ↔ ∃ i, d.items.getLast? = some i ∧ merge i = some i := by
  rcases amend_cases d merge make with ⟨is, i, j, his, hmerge, hamend⟩ | ⟨hnone, hamend⟩
  · rw [hamend, his, List.getLast?_concat]
    simp [hmerge]
  · rw [hamend]
    refine iff_of_false (items_add_ne d make) ?_
    rintro ⟨i, hi, hmerge⟩
    rw [hi, Option.bind_some, hmerge] at hnone
    cases hnone

/-! ### Tool uses -/

theorem use?_eq (d : Draft) (callId : String) :
    d.use? callId = (d.items.find? (isUseOf callId)).bind Item.toolUse? := by
  have hsame : isUseOf callId = fun i => i.toolUse?.any (·.callId == callId) := by
    funext i
    cases i <;> rfl
  unfold use? uses
  rw [List.find?_filterMap, hsame]

theorem any_isUseOf_eq_isSome (d : Draft) (callId : String) :
    d.items.any (isUseOf callId) = (d.use? callId).isSome := by
  rw [any_isUseOf]
  unfold use? uses
  rw [List.isSome_find?]

theorem items_onUse_eq_iff : (d.onUse callId change).items = d.items ↔
    ∀ use, d.use? callId = some use → change use = use := by
  refine mapFirst_eq_self_iff.trans ?_
  rw [use?_eq]
  cases hfind : d.items.find? (isUseOf callId) with
  | none => simp
  | some i =>
    have hi := List.find?_some hfind
    cases i with
    | toolUse id use => simp [mapUse, Item.toolUse?]
    | _ => cases hi

theorem onUse_eq_iff : d.onUse callId change = d ↔
    ∀ use, d.use? callId = some use → change use = use := by
  rw [← items_onUse_eq_iff]
  refine ⟨congrArg items, fun h => ?_⟩
  show { d with items := (d.onUse callId change).items } = d
  rw [h]

/-! ### Calls announced again -/

/-- What a call announced again changes of its use. -/
def restate (c : ToolCall) (use : ToolUse) : ToolUse := { use with tool := c.tool, input := c.args }

theorem recordCall_of_known (h : (d.use? c.callId).isSome = true) :
    d.recordCall c = d.onUse c.callId (restate c) := by
  unfold recordCall
  rw [any_isUseOf_eq_isSome, if_pos h]
  rfl

theorem showsCall_recordCall (d : Draft) (c : ToolCall) : (d.recordCall c).ShowsCall c := by
  unfold ShowsCall use?
  rw [uses_recordCall, recordUse]
  split
  next hany =>
    obtain ⟨use, huse⟩ := Option.isSome_iff_exists.mp (List.isSome_find?.trans hany)
    have hfound := find?_mapFirst_self (p := (·.callId == c.callId)) (f := restate c)
      (fun _ => rfl) d.uses
    rw [huse] at hfound
    exact ⟨restate c use, hfound, rfl, rfl⟩
  next hany =>
    have hnone : d.uses.find? (·.callId == c.callId) = none := by
      rw [← Option.not_isSome_iff_eq_none, List.isSome_find?]
      exact hany
    rw [List.find?_append, hnone]
    exact ⟨{ callId := c.callId, tool := c.tool, input := c.args, status := none }, by simp, rfl,
      rfl⟩

theorem use?_recordCall_of_ne (d : Draft) (h : c.callId ≠ callId) :
    (d.recordCall c).use? callId = d.use? callId := by
  unfold use?
  rw [uses_recordCall, recordUse]
  split
  · refine find?_mapFirst_of_disjoint (f := restate c) (fun _ => rfl) (fun use huse => ?_) d.uses
    rw [beq_iff_eq.mp huse]
    exact beq_false_of_ne h
  · rw [List.find?_append]
    simp [h]

theorem isSome_use?_recordCall (h : (d.use? callId).isSome = true) (c : ToolCall) :
    ((d.recordCall c).use? callId).isSome = true := by
  by_cases hid : c.callId = callId
  · obtain ⟨use, huse, _⟩ := showsCall_recordCall d c
    rw [← hid, huse]
    rfl
  · rwa [use?_recordCall_of_ne d hid]

/-- A call shown as it is announced changes nothing. -/
theorem ShowsCall.recordCall_eq (h : d.ShowsCall c) : d.recordCall c = d := by
  obtain ⟨use, huse, htool, hinput⟩ := h
  rw [recordCall_of_known (by rw [huse]; rfl), onUse_eq_iff]
  intro use' huse'
  obtain rfl := Option.some.inj (huse.symm.trans huse')
  unfold restate
  rw [← htool, ← hinput]

theorem recordCall_recordCall (hid : c'.callId = c.callId)
    (h : (d.use? c.callId).isSome = true) :
    (d.recordCall c).recordCall c' = d.recordCall c' := by
  have h' := isSome_use?_recordCall h c
  rw [← hid] at h'
  rw [recordCall_of_known h', recordCall_of_known h, recordCall_of_known (by rwa [hid]), hid]
  unfold onUse
  dsimp only
  rw [mapFirst_mapFirst (fun i => by cases i <;> rfl) fun i => by cases i <;> rfl]

theorem recordCall_comm (hid : c'.callId ≠ c.callId) (h : (d.use? c.callId).isSome = true)
    (h' : (d.use? c'.callId).isSome = true) :
    (d.recordCall c).recordCall c' = (d.recordCall c').recordCall c := by
  rw [recordCall_of_known (isSome_use?_recordCall h' c), recordCall_of_known h,
    recordCall_of_known (isSome_use?_recordCall h c'), recordCall_of_known h']
  unfold onUse
  dsimp only
  rw [mapFirst_comm]
  · exact fun i => by cases i <;> rfl
  · exact fun i => by cases i <;> rfl
  · intro i hi
    cases i with
    | toolUse id use =>
      have huse : use.callId = c.callId := beq_iff_eq.mp hi
      exact beq_false_of_ne (huse ▸ hid.symm)
    | _ => cases hi

/-- An announcement does not count if the call is announced again later. -/
theorem foldl_recordCall_superseded (hlater : ∃ c' ∈ cs, c'.callId = c.callId)
    (h : (d.use? c.callId).isSome = true) (hcs : ∀ c' ∈ cs, (d.use? c'.callId).isSome = true) :
    cs.foldl recordCall (d.recordCall c) = cs.foldl recordCall d := by
  induction cs generalizing d with
  | nil => simp at hlater
  | cons c' cs ih =>
    obtain ⟨hc', hcs⟩ := List.forall_mem_cons.mp hcs
    rw [List.foldl_cons, List.foldl_cons]
    -- the first announcement is put off until the call is announced again, which undoes it
    by_cases hid : c'.callId = c.callId
    · rw [recordCall_recordCall hid h]
    · rw [recordCall_comm hid h hc']
      refine ih ?_ (isSome_use?_recordCall h c') fun x hx => isSome_use?_recordCall (hcs x hx) c'
      simpa [hid] using hlater

namespace ShowsCalls

theorem tail (h : d.ShowsCalls (c :: cs)) : d.ShowsCalls cs := by
  rintro before c' after rfl hlast
  exact h (c :: before) c' after rfl hlast

theorem known (h : d.ShowsCalls cs) : ∀ c ∈ cs, (d.use? c.callId).isSome = true := by
  induction cs with
  | nil => exact fun _ hc => absurd hc List.not_mem_nil
  | cons c cs ih =>
    refine List.forall_mem_cons.mpr ⟨?_, ih h.tail⟩
    by_cases hlater : ∃ c' ∈ cs, c'.callId = c.callId
    · obtain ⟨c', hc', hid⟩ := hlater
      exact hid ▸ ih h.tail c' hc'
    · obtain ⟨use, huse, _⟩ := h [] c cs rfl fun c' hc' hid => hlater ⟨c', hc', hid⟩
      rw [huse]
      rfl

theorem foldl_recordCall_eq (h : d.ShowsCalls cs) : cs.foldl recordCall d = d := by
  induction cs with
  | nil => rfl
  | cons c cs ih =>
    rw [List.foldl_cons]
    by_cases hlater : ∃ c' ∈ cs, c'.callId = c.callId
    · obtain ⟨hc, hcs⟩ := List.forall_mem_cons.mp h.known
      rw [foldl_recordCall_superseded hlater hc hcs, ih h.tail]
    · have hc : d.ShowsCall c := h [] c cs rfl fun c' hc' hid => hlater ⟨c', hc', hid⟩
      rw [hc.recordCall_eq, ih h.tail]

end ShowsCalls

/-- After the calls have been recorded they are shown as they were announced last. -/
theorem showsCalls_foldl_recordCall (d : Draft) (cs : List ToolCall) :
    (cs.foldl recordCall d).ShowsCalls cs := by
  rintro before c after rfl hlast
  rw [List.foldl_append, List.foldl_cons]
  refine List.foldlRecOn (motive := (ShowsCall · c)) after recordCall
    (showsCall_recordCall _ c) fun d' hd' c' hc' => ?_
  unfold ShowsCall
  rwa [use?_recordCall_of_ne d' (hlast c' hc')]

theorem items_calls_eq_iff : (cs.foldl recordCall d).items = d.items ↔ d.ShowsCalls cs := by
  refine ⟨fun hitems => ?_, fun h => congrArg items h.foldl_recordCall_eq⟩
  have hshows := showsCalls_foldl_recordCall d cs
  unfold ShowsCalls ShowsCall use? uses at hshows ⊢
  rwa [hitems] at hshows

/-! ### Events -/

/-- An event in the middle of a turn that is no sign of life changes the items unless it repeats
what they show. -/
theorem items_applySite_eq_iff {e : SiteEvent} (hmid : e.isMidTurn = true)
    (halive : e.isKeepalive = false) : (d.applySite e).items = d.items ↔ d.Repeats e := by
  cases e with
  | delta words =>
    show (d.appendText words).items = d.items ↔ _
    rw [appendText_eq_amend, items_amend_eq_iff]
    constructor
    · rintro ⟨i, hi, hmerge⟩
      cases i with
      | text id before =>
        have hwords : before ++ words = before := (Item.text.inj (Option.some.inj hmerge)).2
        exact ⟨String.append_eq_left_iff.mp hwords, id, before, hi⟩
      | _ => cases hmerge
    · rintro ⟨rfl, id, before, hi⟩
      exact ⟨_, hi, by simp [Item.extendText?]⟩
  | toolCall calls => exact items_calls_eq_iff
  | toolOutput callId status =>
    refine items_onUse_eq_iff.trans (forall₂_congr fun use _ => ?_)
    obtain ⟨_, _, _, before⟩ := use
    simp [eq_comm]
  | progress stage _ =>
    show (d.setProgress (stagePercent? stage)).items = d.items ↔ _
    rw [setProgress_eq_amend, items_amend_eq_iff]
    constructor
    · rintro ⟨i, hi, hmerge⟩
      cases i with
      | progress id percent =>
        exact ⟨id, percent, hi, (Item.progress.inj (Option.some.inj hmerge)).2⟩
      | _ => cases hmerge
    · rintro ⟨id, percent, hi, hpercent⟩
      exact ⟨_, hi, by rw [Item.setPercent?, hpercent]⟩
  | log _ | deployed _ _ => exact iff_of_false (items_add_ne d _) not_false
  | start _ _ | done _ | error _ _ => cases hmid
  | ping _ => cases halive

theorem items_setReasoning_eq_iff (d : Draft) (words : String) :
    (d.setReasoning words).items = d.items ↔
      ∃ id, d.items.getLast? = some (.reasoning id words) := by
  rw [setReasoning_eq_amend, items_amend_eq_iff]
  constructor
  · rintro ⟨i, hi, hmerge⟩
    cases i with
    | reasoning id before =>
      rw [← (Item.reasoning.inj (Option.some.inj hmerge)).2] at hi
      exact ⟨id, hi⟩
    | _ => cases hmerge
  · rintro ⟨id, hi⟩
    exact ⟨_, hi, rfl⟩

end Draft

end PromptStudio
