import PromptStudio.Proofs.Chat.Loaded
import PromptStudio.Proofs.Chat.Repeats
import PromptStudio.Proofs.Chat.Turn

/-!
# What a panel tells of an event

A panel tells of each event whether it has taken it up (`Panel.tells`): the event opens a turn, or
a turn is active and the event is more than a sign of life. This is not whether the transcript has
changed, for the event may say what the panel shows already (`Panel.Repeats`). An event that is
taken up changes the transcript in all other cases, since an active turn has never been finished
(`Panel.Unfinished`), and an event that is not taken up changes nothing.
-/

namespace PromptStudio

theorem set_eq_self_iff {α : Type} {xs : List α} {i : Nat} {x y : α} (hx : xs[i]? = some x) :
    xs.set i y = xs ↔ y = x := by
  obtain ⟨hi, rfl⟩ := List.getElem?_eq_some_iff.mp hx
  constructor
  · intro h
    rw [← Option.some_inj, ← List.getElem?_set_self hi, h, hx]
  · rintro rfl
    exact List.set_getElem_self hi

namespace Panel

variable {p : Panel} {e : Entry}

/-- The event only shows that the stream is alive, or is none. -/
def Event.isSilent : Event → Bool
  | .site e => e.all SiteEvent.isKeepalive
  | .build e => e.all BuildEvent.isKeepalive

/-- What the panel tells of an event that is applied to it. -/
def tells (p : Panel) : Event → Bool
  | .site e => (p.applySite? e).2
  | .build e => (p.applyBuild? e).2

/-- No turn is active, and at the end of the transcript is an empty reply for a start to take up. -/
def AwaitsStart (p : Panel) : Prop :=
  p.active = none ∧ ∃ e, p.entries.getLast? = some e ∧ isPlaceholder none e = true

/-- The panel shows what the event says: an empty reply after a start, and of a phase its words and
that the turn is in progress. -/
def Repeats (p : Panel) : Event → Prop
  | .site (some (.start _ _)) | .build (some (.start _)) => p.AwaitsStart
  | .site (some e) =>
    ∃ t, p.activeTurn? = some t ∧ Draft.Repeats ⟨p.mode, t.content, p.issued⟩ e
  | .build (some (.phase step message)) =>
    ∃ t, p.activeTurn? = some t ∧ t.kind = some .progress ∧
      ∃ id, t.content.getLast? = some (.reasoning id (phaseText step message))
  | _ => False

/-! ## Active turns -/

theorem activeTurn?_concat {es : List Entry} (he : p.entries = es ++ [e])
    (ha : p.active = some e.id) : p.activeTurn? = some e := by
  unfold activeTurn?
  rw [activeIndex?_concat he ha, he]
  exact List.getElem?_concat_length

theorem onTurn_of_turn (ht : p.activeTurn? = some e) (change : Entry → Nat → Entry × Nat) :
    ∃ i, p.activeIndex? = some i ∧ p.entries[i]? = some e ∧
      p.onTurn change =
        ({ p with
            entries := p.entries.set i (change e p.issued).1
            issued := (change e p.issued).2 }, true) := by
  obtain ⟨i, hi, he⟩ := Option.bind_eq_some_iff.mp ht
  refine ⟨i, hi, he, ?_⟩
  unfold onTurn
  rw [hi]
  dsimp only
  rw [he]

theorem settle_of_turn (ht : p.activeTurn? = some e) : ∃ i, p.entries[i]? = some e ∧
    p.settle = p.entries.set i { e with kind := some .message } := by
  obtain ⟨i, hi, he⟩ := Option.bind_eq_some_iff.mp ht
  refine ⟨i, he, ?_⟩
  unfold settle
  rw [hi]
  dsimp only
  rw [List.modify_eq_set_getElem?, he]
  rfl

/-- The active turn is in the transcript and has not been finished. -/
def Unfinished (p : Panel) : Prop :=
  ∀ id, p.active = some id → ∃ e, p.activeTurn? = some e ∧ e.kind ≠ some .message

namespace Unfinished

theorem of_active (h : p.active = none) : p.Unfinished := by
  intro id ha
  rw [h] at ha
  cases ha

/-- An entry that is added may take the id of the active turn, and then it takes its place. -/
theorem add (h : p.Unfinished) (he : e.kind ≠ some .message) (n : Nat) :
    Unfinished { p with entries := p.entries ++ [e], issued := n } := by
  intro id ha
  by_cases hid : e.id = id
  · exact ⟨e, activeTurn?_concat rfl (hid ▸ ha), he⟩
  obtain ⟨t, ht, hkind⟩ := h id ha
  obtain ⟨i, hi, hget⟩ := Option.bind_eq_some_iff.mp ht
  have hother : lastIndex? (·.id == id) [e] = none := by simp [lastIndex?, hid]
  have hsame : activeIndex? { p with entries := p.entries ++ [e], issued := n } = some i := by
    unfold activeIndex? at hi ⊢
    dsimp only at ha ⊢
    rw [ha, Option.bind_some] at hi ⊢
    rw [lastIndex?_append, hother, hi]
    rfl
  refine ⟨t, ?_, hkind⟩
  unfold activeTurn?
  rw [hsame]
  exact (List.getElem?_append_left (List.getElem?_eq_some_iff.mp hget).1).trans hget

theorem revise {i : Nat} {e' : Entry} (hi : p.activeIndex? = some i)
    (he : p.entries[i]? = some e) (hid : e'.id = e.id) (hkind : e'.kind ≠ some .message) (n : Nat) :
    Unfinished { p with entries := p.entries.set i e', issued := n } := by
  intro id _
  refine ⟨e', ?_, hkind⟩
  have hsame : activeIndex? { p with entries := p.entries.set i e', issued := n } =
      p.activeIndex? := activeIndex?_congr rfl (map_id_set he hid)
  unfold activeTurn?
  rw [hsame, hi]
  exact List.getElem?_set_self (List.getElem?_eq_some_iff.mp he).1

theorem redraft {draft : Draft → Draft} {kind : Option EntryKind → Option EntryKind}
    (h : p.Unfinished) (hkind : ∀ k, kind k = k ∨ kind k = some .progress) :
    (p.redraft draft kind).Unfinished := by
  unfold Panel.redraft
  cases ha : p.active with
  | none =>
    rw [onTurn_of_active ha]
    exact h
  | some id =>
    obtain ⟨e, ht, hopen⟩ := h id ha
    obtain ⟨i, hi, he, hturn⟩ := onTurn_of_turn ht _
    have hnew : kind e.kind ≠ some .message := by
      rcases hkind e.kind with hk | hk
      · rwa [hk]
      · rw [hk]
        decide
    rw [hturn]
    exact revise hi he (by rfl) hnew _

theorem openTurn (p : Panel) : p.openTurn.Unfinished := by
  intro id _
  rcases openTurn_cases p with ⟨e, hlast, hplace, hopen⟩ | hopen
  · obtain ⟨es, hes⟩ := List.getLast?_eq_some_iff.mp hlast
    rw [hopen]
    refine ⟨e, activeTurn?_concat hes rfl, fun hkind => ?_⟩
    simp [isPlaceholder, Entry.isLoading, hkind] at hplace
  · rw [hopen]
    exact ⟨_, activeTurn?_concat rfl rfl, by simp [Entry.loading]⟩

theorem step (h : p.Unfinished) (x : Step) : (p.step x).Unfinished := by
  cases x with
  | load _ => exact of_active rfl
  | input x =>
    cases x with
    | event x =>
      show (p.apply x).Unfinished
      rcases apply_cases x with ⟨_, hx⟩ | ⟨_, hx | ⟨failure, hx⟩ | ⟨_, _, _, hkind, hx⟩⟩
      · rw [hx]
        exact openTurn p
      · rwa [hx]
      · rw [hx]
        exact of_active rfl
      · rw [hx]
        exact h.redraft hkind
    | prompt text => exact h.add (by simp [Entry.prompt]) _
    | loading => exact h.add (by simp [Entry.loading]) _
    | detach => exact of_active rfl

end Unfinished

theorem unfinished_ofSteps (mode : Mode) (steps : List Step) : (ofSteps mode steps).Unfinished := by
  unfold ofSteps
  exact List.foldlRecOn steps Panel.step (Unfinished.of_active rfl) fun _ h x _ => h.step x

/-! ## What is told -/

theorem onTurn_snd (p : Panel) (change : Entry → Nat → Entry × Nat) :
    (p.onTurn change).2 = p.activeTurn?.isSome := by
  unfold activeTurn?
  rcases onTurn_cases p change with ⟨hnone, hturn⟩ | ⟨i, t, hi, ht, _, hturn⟩
  · rw [hturn, hnone]
    rfl
  · rw [hturn, hi, Option.bind_some, ht]
    rfl

theorem entries_onTurn_eq_iff {change : Entry → Nat → Entry × Nat} (ht : p.activeTurn? = some e) :
    (p.onTurn change).1.entries = p.entries ↔ (change e p.issued).1 = e := by
  obtain ⟨i, _, he, hturn⟩ := onTurn_of_turn ht change
  rw [hturn]
  exact set_eq_self_iff he

theorem closeTurn_snd (p : Panel) (failure : Option String) :
    (p.closeTurn failure).2 = p.activeTurn?.isSome := by
  unfold closeTurn
  exact onTurn_snd p _

theorem entries_closeTurn_ne (ht : p.activeTurn? = some e) (hkind : e.kind ≠ some .message)
    (failure : Option String) : (p.closeTurn failure).1.entries ≠ p.entries := by
  unfold closeTurn
  exact fun h => hkind (congrArg Entry.kind ((entries_onTurn_eq_iff ht).mp h)).symm

theorem entries_onDraft_eq_iff {y : SiteEvent} (ht : p.activeTurn? = some e)
    (hmid : y.isMidTurn = true) (halive : y.isKeepalive = false) :
    (p.onDraft (·.applySite y)).1.entries = p.entries ↔
      ∃ t, p.activeTurn? = some t ∧ Draft.Repeats ⟨p.mode, t.content, p.issued⟩ y := by
  have hitems := Draft.items_applySite_eq_iff (d := ⟨p.mode, e.content, p.issued⟩) hmid halive
  refine (entries_onTurn_eq_iff ht).trans ⟨fun h => ?_, ?_⟩
  · exact ⟨e, ht, hitems.mp (congrArg Entry.content h)⟩
  · rintro ⟨t, ht', h⟩
    obtain rfl := Option.some.inj (ht'.symm.trans ht)
    show { t with content := Draft.items _ } = t
    rw [hitems.mpr h]

theorem entries_phase_eq_iff {step : String} {message : Option String}
    (ht : p.activeTurn? = some e) :
    (p.applyBuild (.phase step message)).1.entries = p.entries ↔
      p.Repeats (.build (some (.phase step message))) := by
  have hitems := Draft.items_setReasoning_eq_iff ⟨p.mode, e.content, p.issued⟩
    (phaseText step message)
  refine (entries_onTurn_eq_iff ht).trans ⟨fun h => ?_, ?_⟩
  · exact ⟨e, ht, (congrArg Entry.kind h).symm, hitems.mp (congrArg Entry.content h)⟩
  · rintro ⟨t, ht', hprogress, h⟩
    obtain rfl := Option.some.inj (ht'.symm.trans ht)
    show { t with kind := some .progress, content := Draft.items _ } = t
    rw [hitems.mpr h, ← hprogress]

theorem settle_ne (ht : p.activeTurn? = some e) (hkind : e.kind ≠ some .message) :
    p.settle ≠ p.entries := by
  obtain ⟨i, he, hsettle⟩ := settle_of_turn ht
  rw [hsettle, ne_eq, set_eq_self_iff he]
  exact fun h => hkind (congrArg Entry.kind h).symm

/-- A start that changes no entry has taken up a reply. -/
theorem takes_of_entries_openTurn (h : p.openTurn.entries = p.entries) :
    p.settle = p.entries ∧ ∃ e, p.settle.getLast? = some e ∧ isPlaceholder p.active e = true := by
  rcases openTurn_cases p with ⟨e, hlast, hplace, hopen⟩ | hopen
  · rw [hopen] at h
    exact ⟨h, e, hlast, hplace⟩
  · rw [hopen] at h
    have hlength := congrArg List.length h
    simp [length_settle] at hlength

/-- A start that takes up a reply changes nothing, unless a turn is active, which is finished. -/
theorem entries_openTurn_eq_iff (h : p.Unfinished) :
    p.openTurn.entries = p.entries ↔ p.AwaitsStart := by
  constructor
  · intro hopen
    obtain ⟨hsettle, e, hlast, hplace⟩ := takes_of_entries_openTurn hopen
    cases ha : p.active with
    | none => exact ⟨ha, e, hsettle ▸ hlast, ha ▸ hplace⟩
    | some id =>
      obtain ⟨t, ht, hkind⟩ := h id ha
      exact absurd hsettle (settle_ne ht hkind)
  · rintro ⟨ha, e, hlast, hplace⟩
    obtain ⟨es, hes⟩ := List.getLast?_eq_some_iff.mp hlast
    rw [openTurn_concat hes ha, if_pos hplace]

/-! ## Events -/

/-- An event is a start and always taken up, or it is silent and never taken up, or it is taken up
if there is a turn; then it changes that, unless it repeats what it shows. -/
theorem tells_cases (x : Event) :
    (x.isStart = true ∧ ∀ p : Panel, p.tells x = true ∧ (p.Repeats x ↔ p.AwaitsStart)) ∨
      (x.isStart = false ∧ x.isSilent = true ∧ ∀ p : Panel, p.tells x = false ∧ p.apply x = p) ∨
      x.isStart = false ∧ x.isSilent = false ∧ ∀ p : Panel, p.tells x = p.activeTurn?.isSome ∧
        ∀ e, p.activeTurn? = some e → e.kind ≠ some .message →
          ((p.apply x).entries = p.entries ↔ p.Repeats x) := by
  cases x with
  | site x =>
    cases x with
    | none => exact .inr (.inl ⟨rfl, rfl, fun _ => ⟨rfl, rfl⟩⟩)
    | some x =>
      cases x with
      | start _ _ => exact .inl ⟨rfl, fun _ => ⟨rfl, .rfl⟩⟩
      | ping _ => exact .inr (.inl ⟨rfl, rfl, fun _ => ⟨rfl, rfl⟩⟩)
      | done _ | error _ _ =>
        refine .inr (.inr ⟨rfl, rfl, fun p => ⟨closeTurn_snd p _, fun e ht hkind => ?_⟩⟩)
        refine iff_of_false (entries_closeTurn_ne ht hkind _) ?_
        rintro ⟨_, _, h⟩
        exact h
      | delta _ | toolCall _ | toolOutput _ _ | progress _ _ | log _ | deployed _ _ =>
        exact .inr (.inr ⟨rfl, rfl, fun p => ⟨onTurn_snd p _, fun e ht _ =>
          entries_onDraft_eq_iff ht rfl rfl⟩⟩)
  | build x =>
    cases x with
    | none => exact .inr (.inl ⟨rfl, rfl, fun _ => ⟨rfl, rfl⟩⟩)
    | some x =>
      cases x with
      | start _ => exact .inl ⟨rfl, fun _ => ⟨rfl, .rfl⟩⟩
      | ping _ => exact .inr (.inl ⟨rfl, rfl, fun _ => ⟨rfl, rfl⟩⟩)
      | done _ | error _ _ _ =>
        exact .inr (.inr ⟨rfl, rfl, fun p => ⟨closeTurn_snd p _, fun e ht hkind =>
          iff_of_false (entries_closeTurn_ne ht hkind _) not_false⟩⟩)
      | phase _ _ =>
        exact .inr (.inr ⟨rfl, rfl, fun p => ⟨onTurn_snd p _, fun e ht _ =>
          entries_phase_eq_iff ht⟩⟩)

/-- A panel tells of an event that it has been taken up exactly if the event is a start, or a turn
is active and the event is more than a sign of life. An event that is not taken up changes nothing
at all, and one that is changes the transcript unless it repeats what the panel shows. -/
theorem tells_iff_changes (mode : Mode) (steps : List Step) (x : Event) :
    let p := ofSteps mode steps
    (p.tells x = true ↔ x.isStart = true ∨ p.isStreaming = true ∧ x.isSilent = false) ∧
      (p.tells x = true ∨ p.apply x = p) ∧
      ((p.apply x).entries ≠ p.entries ↔ p.tells x = true ∧ ¬ p.Repeats x) := by
  intro p
  have hopen : p.Unfinished := unfinished_ofSteps mode steps
  rcases tells_cases x with ⟨hstart, hx⟩ | ⟨hstart, hsilent, hx⟩ | ⟨hstart, hsilent, hx⟩
  · obtain ⟨htells, hrepeats⟩ := hx p
    rw [apply_of_isStart hstart, hrepeats, ← entries_openTurn_eq_iff hopen, htells, hstart]
    simp
  · obtain ⟨htells, happly⟩ := hx p
    rw [happly, htells, hstart, hsilent]
    simp
  · obtain ⟨htells, hchanges⟩ := hx p
    rw [htells, hstart, hsilent]
    cases ha : p.active with
    | none =>
      rw [apply_of_active ha hstart]
      simp [activeTurn?, activeIndex?_of_active ha, isStreaming, ha]
    | some id =>
      obtain ⟨e, ht, hkind⟩ := hopen id ha
      rw [← hchanges e ht hkind, ht]
      simp [isStreaming, ha]

/-- The output of a call that has not been announced is taken up and changes nothing. -/
theorem tells_unknown_output :
    let p := ofSteps .webCreator [.input (.event (.site (some (.start "t" none))))]
    let x : Event := .site (some (.toolOutput "c" .success))
    ¬ (p.tells x = true ↔ (p.apply x).entries ≠ p.entries) := by
  intro p x
  have htells : p.tells x = true := rfl
  have hsame : (p.apply x).entries = p.entries := rfl
  exact fun h => h.mp htells hsame

end Panel

end PromptStudio
