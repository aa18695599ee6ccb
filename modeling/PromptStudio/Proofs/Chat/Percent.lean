import PromptStudio.Proofs.Chat.Loaded

/-!
# Percentages of a transcript

A panel shows only percentages up to 100: a known stage gives such a number, an unknown one keeps
the number before or starts at 0, and nothing else makes or changes a percentage. So if the loaded
conversations show only such percentages, the panel never shows another (`inRange_ofSteps`).
-/

namespace PromptStudio

/-- A percentage is at most 100. -/
def Item.InRange : Item → Prop
  | .progress _ percent => percent ≤ 100
  | _ => True

/-- Every percentage of the entry is at most 100. -/
def Entry.InRange (e : Entry) : Prop := ∀ i ∈ e.content, i.InRange

theorem stagePercent?_le {stage : String} {n : Nat} (h : stagePercent? stage = some n) :
    n ≤ 100 := by
  unfold stagePercent? at h
  split at h <;> cases h <;> decide

theorem mem_mapFirst {α : Type} {p : α → Bool} {f : α → α} {y : α} {xs : List α}
    (h : y ∈ mapFirst p f xs) : y ∈ xs ∨ ∃ x ∈ xs, y = f x := by
  induction xs with
  | nil => exact .inl h
  | cons x xs ih =>
    rw [mapFirst] at h
    split at h
    · rcases List.mem_cons.mp h with rfl | hy
      · exact .inr ⟨x, List.mem_cons_self, rfl⟩
      · exact .inl (List.mem_cons_of_mem x hy)
    · rcases List.mem_cons.mp h with rfl | hy
      · exact .inl List.mem_cons_self
      · rcases ih hy with hy | ⟨z, hz, rfl⟩
        · exact .inl (List.mem_cons_of_mem x hy)
        · exact .inr ⟨z, List.mem_cons_of_mem x hz, rfl⟩

/-! ## Drafts -/

namespace Draft

variable {d : Draft}

/-- Every percentage of the draft is at most 100. -/
def InRange (d : Draft) : Prop := ∀ i ∈ d.items, i.InRange

theorem InRange.add {make : String → Item} (h : d.InRange) (hmake : ∀ id, (make id).InRange) :
    (d.add make).InRange := by
  intro i hi
  rcases List.mem_append.mp hi with hi | hi
  · exact h i hi
  · obtain rfl := List.mem_singleton.mp hi
    exact hmake _

theorem InRange.amend {merge : Item → Option Item} {make : String → Item} (h : d.InRange)
    (hmerge : ∀ i j, i.InRange → merge i = some j → j.InRange)
    (hmake : ∀ id, (make id).InRange) : (d.amend merge make).InRange := by
  rcases amend_cases d merge make with ⟨is, i, j, his, hj, hamend⟩ | ⟨_, hamend⟩
  · rw [hamend]
    unfold InRange at h
    rw [his] at h
    obtain ⟨his, hi⟩ := List.forall_mem_append.mp h
    exact List.forall_mem_append.mpr
      ⟨his, List.forall_mem_singleton.mpr (hmerge i j (List.forall_mem_singleton.mp hi) hj)⟩
  · rw [hamend]
    exact h.add hmake

theorem InRange.onUse (h : d.InRange) (callId : String) (change : ToolUse → ToolUse) :
    (d.onUse callId change).InRange := by
  intro i hi
  rcases mem_mapFirst hi with hi | ⟨j, hj, rfl⟩
  · exact h i hi
  · have hj := h j hj
    cases j with
    | toolUse id use => trivial
    | text _ _ | code _ _ | reasoning _ _ | progress _ _ | log _ _ | preview _ _ => exact hj

theorem InRange.recordCall (h : d.InRange) (c : ToolCall) : (d.recordCall c).InRange := by
  unfold Draft.recordCall
  split
  · exact h.onUse c.callId _
  · exact h.add fun _ => trivial

theorem InRange.appendText (h : d.InRange) (words : String) : (d.appendText words).InRange := by
  rw [appendText_eq_amend]
  refine h.amend (fun i j _ hj => ?_) fun _ => trivial
  cases i with
  | text id before => obtain rfl := Option.some.inj hj; trivial
  | _ => cases hj

theorem InRange.setReasoning (h : d.InRange) (words : String) :
    (d.setReasoning words).InRange := by
  rw [setReasoning_eq_amend]
  refine h.amend (fun i j _ hj => ?_) fun _ => trivial
  cases i with
  | reasoning id before => obtain rfl := Option.some.inj hj; trivial
  | _ => cases hj

/-- The percentage shown is a stage's, the one before, or 0. -/
theorem InRange.setProgress {percent : Option Nat} (h : d.InRange)
    (hpercent : ∀ n, percent = some n → n ≤ 100) : (d.setProgress percent).InRange := by
  rw [setProgress_eq_amend]
  refine h.amend (fun i j hi hj => ?_) fun id => ?_
  · cases i with
    | progress id before =>
      obtain rfl := Option.some.inj hj
      cases percent with
      | none => exact hi
      | some n => exact hpercent n rfl
    | _ => cases hj
  · cases percent with
    | none => exact Nat.zero_le 100
    | some n => exact hpercent n rfl

theorem InRange.applySite (h : d.InRange) (e : SiteEvent) : (d.applySite e).InRange := by
  cases e with
  | delta content => exact h.appendText content
  | toolCall calls =>
    exact List.foldlRecOn (motive := InRange) calls Draft.recordCall h fun _ hd c _ =>
      hd.recordCall c
  | toolOutput callId status => exact h.onUse callId _
  | progress stage _ => exact h.setProgress fun _ => stagePercent?_le
  | log content => exact h.add fun _ => trivial
  | deployed url message => exact h.add fun _ => trivial
  | start _ _ | ping _ | done _ | error _ _ => exact h

end Draft

/-! ## Panels -/

namespace Panel

variable {p : Panel}

/-- Every percentage of the transcript is at most 100. -/
def InRange (p : Panel) : Prop := ∀ e ∈ p.entries, e.InRange

theorem InRange.concat {e : Entry} (h : p.InRange) (he : e.InRange) :
    ∀ x ∈ p.entries ++ [e], x.InRange :=
  List.forall_mem_append.mpr ⟨h, List.forall_mem_singleton.mpr he⟩

theorem InRange.set {e : Entry} (h : p.InRange) (i : Nat) (he : e.InRange) :
    ∀ x ∈ p.entries.set i e, x.InRange := by
  intro x hx
  rcases List.mem_or_eq_of_mem_set hx with hx | rfl
  · exact h x hx
  · exact he

theorem InRange.onTurn {change : Entry → Nat → Entry × Nat} (h : p.InRange)
    (hchange : ∀ e n, e.InRange → (change e n).1.InRange) : (p.onTurn change).1.InRange := by
  rcases onTurn_cases p change with ⟨_, hturn⟩ | ⟨i, e, _, he, _, hturn⟩
  · rw [hturn]
    exact h
  · rw [hturn]
    exact h.set i (hchange e _ (h e (List.mem_of_getElem? he)))

theorem InRange.settle (h : p.InRange) : ∀ e ∈ p.settle, e.InRange := by
  rcases settle_cases p with ⟨_, hsettle⟩ | ⟨i, e, _, he, _, hsettle⟩
  · rw [hsettle]
    exact h
  · rw [hsettle]
    exact h.set i (h e (List.mem_of_getElem? he))

theorem InRange.openTurn (h : p.InRange) : p.openTurn.InRange := by
  have hsettle : ({ p with entries := p.settle } : Panel).InRange := h.settle
  rcases openTurn_cases p with ⟨_, _, _, hopen⟩ | hopen
  · rw [hopen]
    exact hsettle
  · rw [hopen]
    exact hsettle.concat fun _ hi => absurd hi List.not_mem_nil

theorem InRange.closeTurn (h : p.InRange) (failure : Option String) :
    (p.closeTurn failure).1.InRange := by
  have hfinish : (p.onTurn fun e issued =>
      ({ e with kind := some .message, error := failure.or e.error }, issued)).1.InRange :=
    h.onTurn fun _ _ he => he
  unfold Panel.closeTurn
  exact hfinish

theorem InRange.applySite (h : p.InRange) (e : SiteEvent) : (p.applySite e).1.InRange := by
  cases e with
  | start _ _ => exact h.openTurn
  | ping _ => exact h
  | done _ | error _ _ => exact h.closeTurn _
  | delta _ | toolCall _ | toolOutput _ _ | progress _ _ | log _ | deployed _ _ =>
    exact h.onTurn fun e n he => Draft.InRange.applySite (d := ⟨p.mode, e.content, n⟩) he _

theorem InRange.applyBuild (h : p.InRange) (e : BuildEvent) : (p.applyBuild e).1.InRange := by
  cases e with
  | start _ => exact h.openTurn
  | phase step message =>
    exact h.onTurn fun e n he => Draft.InRange.setReasoning (d := ⟨p.mode, e.content, n⟩) he _
  | ping _ => exact h
  | done _ | error _ _ _ => exact h.closeTurn _

/-- No input makes a percentage above 100. -/
theorem InRange.feed (h : p.InRange) (x : Input) : (p.feed x).InRange := by
  cases x with
  | event x =>
    cases x with
    | site e =>
      cases e with
      | none => exact h
      | some e => exact h.applySite e
    | build e =>
      cases e with
      | none => exact h
      | some e => exact h.applyBuild e
  | prompt text => exact h.concat (List.forall_mem_singleton.mpr trivial)
  | loading => exact h.concat fun _ hi => absurd hi List.not_mem_nil
  | detach => exact h

/-- If no loaded conversation shows a percentage above 100, the panel never does. -/
theorem inRange_ofSteps (mode : Mode) {steps : List Step}
    (h : ∀ entries, .load entries ∈ steps → ∀ e ∈ entries, e.InRange) :
    (ofSteps mode steps).InRange := by
  unfold ofSteps
  refine List.foldlRecOn (motive := InRange) steps step ?_ fun p hp x hx => ?_
  · exact fun _ he => absurd he List.not_mem_nil
  · cases x with
    | input x => exact hp.feed x
    | load entries => exact h entries hx

end Panel

end PromptStudio
