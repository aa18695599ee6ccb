import PromptStudio.Proofs.Chat.Event

/-!
# Turns

What a panel shows of one prompt and of the frames it hears in reply is its turn (`Panel.turn`). Ids
are handed out by counting over the whole life of a panel, so the same turn bears other ids in
another panel. `Echoes` relates a panel that ends with a turn to the panel that shows this turn
alone; `Echoes.hear` says that no frame can tell the two apart. A turn with one start is a prompt
and at most one reply (`roles_turn`).
-/

namespace PromptStudio

namespace Panel

variable {p q : Panel} {pre es : List Entry} {e e' : Entry} {mode : Mode} {f : Frame}
  {frames : List Frame} {change change' : Entry → Nat → Entry × Nat}

/-! ## What a frame does -/

theorem hear_eq_apply (p : Panel) (mode : Mode) (f : Frame) :
    p.hear mode f = p.apply (.ofFrame mode f) := by
  cases mode <;> rfl

theorem isStart_ofFrame (mode : Mode) (f : Frame) :
    (Event.ofFrame mode f).isStart = f.isStart mode := by
  unfold Frame.isStart
  cases mode with
  | workflow =>
    dsimp only [Event.ofFrame]
    cases (EventFamily.ofFrame? f : Option BuildEvent) with
    | none => rfl
    | some e => cases e <;> rfl
  | webCreator =>
    dsimp only [Event.ofFrame]
    cases (EventFamily.ofFrame? f : Option SiteEvent) with
    | none => rfl
    | some e => cases e <;> rfl

/-- A frame opens a turn, or it does nothing, closes the active turn or changes its content. -/
theorem hear_cases (mode : Mode) (f : Frame) :
    (f.isStart mode = true ∧ ∀ p : Panel, p.hear mode f = p.openTurn) ∨
      f.isStart mode = false ∧
        ((∀ p : Panel, p.hear mode f = p) ∨
          (∃ failure, ∀ p : Panel, p.hear mode f = (p.closeTurn failure).1) ∨
          ∃ draft kind, (∀ d d', d.Alike d' → (draft d).Alike (draft d')) ∧
            ∀ p : Panel, p.hear mode f = p.redraft draft kind) := by
  simp only [hear_eq_apply, ← isStart_ofFrame]
  rcases apply_cases (.ofFrame mode f) with h | ⟨hf, h | h | ⟨draft, kind, hedit, _, h⟩⟩
  · exact .inl h
  · exact .inr ⟨hf, .inl h⟩
  · exact .inr ⟨hf, .inr (.inl h)⟩
  · exact .inr ⟨hf, .inr (.inr ⟨draft, kind, hedit.alike, h⟩)⟩

theorem hear_of_isStart (hf : f.isStart mode = true) : p.hear mode f = p.openTurn := by
  rw [hear_eq_apply]
  exact apply_of_isStart (isStart_ofFrame mode f ▸ hf)

@[simp] theorem mode_hear (p : Panel) (mode : Mode) (f : Frame) :
    (p.hear mode f).mode = p.mode := by
  rw [hear_eq_apply, mode_apply]

/-! ## A turn at the end -/

/-- A turn is opened by taking up a placeholder at the end, or by adding a reply. -/
theorem openTurn_concat (he : p.entries = es ++ [e]) (ha : p.active = none) :
    p.openTurn =
      if isPlaceholder none e then { p with active := some e.id }
      else
        { p with
          entries := p.entries ++ [Entry.loading (idOf p.mode (p.issued + 1)) p.mode]
          active := some (idOf p.mode (p.issued + 1))
          issued := p.issued + 1 } := by
  have hsettle : p.settle = p.entries := by
    unfold settle
    rw [activeIndex?_of_active ha]
  have hlast : p.entries.getLast? = some e := by rw [he, List.getLast?_concat]
  unfold openTurn
  dsimp only
  rw [hsettle, hlast, ha]
  cases hplace : isPlaceholder none e with
  | true => rw [Option.filter_some_pos hplace, if_pos rfl]
  | false =>
    have hnone : (some e).filter (isPlaceholder none) = none := by simp [hplace]
    rw [hnone, if_neg Bool.false_ne_true]

theorem isPlaceholder_congr (h : e.unnamed = e'.unnamed) :
    isPlaceholder none e = isPlaceholder none e' := by
  obtain ⟨hkind, hrole, hcontent, _⟩ := Entry.unnamed_inj.mp h
  have hempty : e.content.isEmpty = e'.content.isEmpty := by
    simpa using congrArg List.isEmpty hcontent
  unfold isPlaceholder Entry.isLoading
  rw [hkind, hrole, hempty]
  rfl

/-! ## The same turn in another panel -/

/-- What the panel `p` shows behind `pre` is up to ids what `q` shows, and a turn is active in
neither or in both, and then at the end. -/
inductive Echoes (pre : List Entry) (p q : Panel) : Prop
  | intro (es es' : List Entry) (e e' : Entry) (mode : p.mode = q.mode)
      (shown : p.entries = pre ++ es ++ [e]) (alone : q.entries = es' ++ [e'])
      (before : es.map Entry.unnamed = es'.map Entry.unnamed) (last : e.unnamed = e'.unnamed)
      (active : p.active = none ∧ q.active = none ∨ p.active = some e.id ∧ q.active = some e'.id)

theorem Echoes.entries (h : Echoes pre p q) :
    p.entries.map Entry.unnamed = pre.map Entry.unnamed ++ q.entries.map Entry.unnamed := by
  obtain ⟨_, _, _, _, _, hp, hq, hbefore, hlast, _⟩ := h
  rw [hp, hq]
  simp [hbefore, hlast]

theorem Echoes.detach (h : Echoes pre p q) : Echoes pre p.detach q.detach := by
  obtain ⟨_, _, _, _, hmode, hp, hq, hbefore, hlast, _⟩ := h
  exact ⟨_, _, _, _, hmode, hp, hq, hbefore, hlast, .inl ⟨rfl, rfl⟩⟩

theorem Echoes.onTurn (h : Echoes pre p q) (hid : ∀ e n, (change e n).1.id = e.id)
    (hid' : ∀ e n, (change' e n).1.id = e.id)
    (hchange : ∀ e e' n n', e.unnamed = e'.unnamed →
      (change e n).1.unnamed = (change' e' n').1.unnamed) :
    Echoes pre (p.onTurn change).1 (q.onTurn change').1 := by
  obtain ⟨es, es', e, e', hmode, hp, hq, hbefore, hlast, ⟨hpa, hqa⟩ | ⟨hpa, hqa⟩⟩ := h
  · rw [onTurn_of_active hpa, onTurn_of_active hqa]
    exact ⟨es, es', e, e', hmode, hp, hq, hbefore, hlast, .inl ⟨hpa, hqa⟩⟩
  · rw [onTurn_concat hp hpa, onTurn_concat hq hqa]
    refine ⟨es, es', _, _, hmode, rfl, rfl, hbefore, hchange _ _ _ _ hlast, .inr ⟨?_, ?_⟩⟩
    · rw [hid, ← hpa]
    · rw [hid', ← hqa]

theorem Echoes.redraft {draft : Draft → Draft} (h : Echoes pre p q)
    (hdraft : ∀ d d', d.Alike d' → (draft d).Alike (draft d'))
    (kind : Option EntryKind → Option EntryKind) :
    Echoes pre (p.redraft draft kind) (q.redraft draft kind) := by
  refine h.onTurn (fun _ _ => rfl) (fun _ _ => rfl) fun e e' n n' he => ?_
  obtain ⟨hkind, hrole, hcontent, hmode, hparent, herror⟩ := Entry.unnamed_inj.mp he
  exact Entry.unnamed_inj.mpr
    ⟨congrArg kind hkind, hrole, hdraft _ _ hcontent, hmode, hparent, herror⟩

theorem Echoes.closeTurn (h : Echoes pre p q) (failure : Option String) :
    Echoes pre (p.closeTurn failure).1 (q.closeTurn failure).1 := by
  unfold Panel.closeTurn
  refine (h.onTurn (fun _ _ => rfl) (fun _ _ => rfl) fun e e' n n' he => ?_).detach
  obtain ⟨_, hrole, hcontent, hmode, hparent, herror⟩ := Entry.unnamed_inj.mp he
  exact Entry.unnamed_inj.mpr
    ⟨rfl, hrole, hcontent, hmode, hparent, congrArg failure.or herror⟩

/-- Both panels take up their last entry, or both add a reply. -/
theorem Echoes.openTurn (h : Echoes pre p q) (hidle : q.active = none) :
    Echoes pre p.openTurn q.openTurn := by
  obtain ⟨es, es', e, e', hmode, hp, hq, hbefore, hlast, hactive⟩ := h
  have hpa : p.active = none := by
    rcases hactive with ⟨hpa, _⟩ | ⟨_, hqa⟩
    · exact hpa
    · rw [hidle] at hqa
      cases hqa
  rw [openTurn_concat hp hpa, openTurn_concat hq hidle, isPlaceholder_congr hlast]
  split
  · exact ⟨es, es', e, e', hmode, hp, hq, hbefore, hlast, .inr ⟨rfl, rfl⟩⟩
  · refine ⟨es ++ [e], q.entries, Entry.loading _ p.mode, Entry.loading _ q.mode, hmode, ?_, rfl,
      ?_, ?_, .inr ⟨rfl, rfl⟩⟩
    · exact congrArg (· ++ _) (hp.trans (List.append_assoc _ _ _))
    · rw [hq, List.map_append, List.map_append, hbefore]
      exact congrArg (_ ++ [·]) hlast
    · simp [Entry.unnamed, Entry.loading, hmode]

/-- No frame tells the panels apart, provided that a turn is not opened while one is active. -/
theorem Echoes.hear (h : Echoes pre p q) (hstart : f.isStart mode = true → q.active = none) :
    Echoes pre (p.hear mode f) (q.hear mode f) := by
  rcases hear_cases mode f with ⟨hf, hhear⟩ | ⟨_, hhear | ⟨failure, hhear⟩ | ⟨_, kind, hd, hhear⟩⟩
  · rw [hhear, hhear]
    exact h.openTurn (hstart hf)
  · rwa [hhear, hhear]
  · rw [hhear, hhear]
    exact h.closeTurn failure
  · rw [hhear, hhear]
    exact h.redraft hd kind

/-! ## Turns -/

/-- What a panel shows of one prompt and of the frames it hears in reply, on its own. -/
def turn (mode : Mode) (text : String) (frames : List Frame) : Panel :=
  frames.foldl (fun p f => p.hear mode f) (({ mode } : Panel).ask mode text)

theorem turn_concat (mode : Mode) (text : String) (frames : List Frame) (f : Frame) :
    turn mode text (frames ++ [f]) = (turn mode text frames).hear mode f := by
  unfold turn
  rw [List.foldl_append]
  rfl

/-- A prompt begins the same turn in every panel. -/
theorem echoes_ask (hmode : p.mode = mode) (text : String) :
    Echoes p.entries (p.ask mode text) (turn mode text []) := by
  subst hmode
  cases hm : p.mode with
  | workflow =>
    refine ⟨[p.nextPrompt text], [_], Entry.loading (idOf p.mode (p.issued + 3)) p.mode, _, hm, ?_,
      rfl, ?_, ?_, .inl ⟨rfl, rfl⟩⟩
    · simp [ask]
    · simp [hm, nextPrompt, Entry.prompt, Entry.unnamed, Item.unnamed, Item.withId]
    · simp [hm, Entry.loading, Entry.unnamed]
  | webCreator =>
    refine ⟨[], [], p.nextPrompt text, _, hm, ?_, rfl, rfl, ?_, .inl ⟨rfl, rfl⟩⟩
    · exact congrArg (· ++ _) (List.append_nil _).symm
    · simp [hm, nextPrompt, Entry.prompt, Entry.unnamed, Item.unnamed, Item.withId]

/-- Without an active turn only a start is heard. -/
theorem hear_of_active (ha : p.active = none) (hf : f.isStart mode = false) :
    p.hear mode f = p := by
  rw [hear_eq_apply]
  exact apply_of_active ha (isStart_ofFrame mode f ▸ hf)

theorem foldl_hear_of_active (ha : p.active = none)
    (hf : ∀ f ∈ frames, f.isStart mode = false) :
    frames.foldl (fun p f => p.hear mode f) p = p := by
  induction frames with
  | nil => rfl
  | cons f frames ih =>
    rw [List.foldl_cons, hear_of_active ha (hf f List.mem_cons_self)]
    exact ih fun g hg => hf g (List.mem_cons_of_mem f hg)

/-- What comes before the start has no effect. -/
theorem turn_of_idle {before : List Frame} (h : ∀ f ∈ before, f.isStart mode = false)
    (text : String) (frames : List Frame) :
    turn mode text (before ++ frames) = turn mode text frames := by
  unfold turn
  rw [List.foldl_append, foldl_hear_of_active (active_ask _ mode text) h]

theorem active_turn_of_idle (h : ∀ f ∈ frames, f.isStart mode = false) (text : String) :
    (turn mode text frames).active = none := by
  have hturn : turn mode text (frames ++ []) = turn mode text [] := turn_of_idle h text []
  rw [List.append_nil] at hturn
  rw [hturn]
  exact active_ask _ mode text

/-! ## Its entries -/

theorem map_role_onTurn (hchange : ∀ e n, (change e n).1.role = e.role) :
    (p.onTurn change).1.entries.map Entry.role = p.entries.map Entry.role := by
  unfold onTurn
  cases p.activeIndex? with
  | none => rfl
  | some i =>
    dsimp only
    cases he : p.entries[i]? with
    | none => rfl
    | some e =>
      have hget : (p.entries.map Entry.role)[i]? = some (change e p.issued).1.role := by
        rw [List.getElem?_map, he, hchange]
        rfl
      obtain ⟨hi, hget⟩ := List.getElem?_eq_some_iff.mp hget
      show (p.entries.set i _).map Entry.role = _
      rw [List.map_set, ← hget, List.set_getElem_self]

/-- Only a start adds an entry. -/
theorem map_role_hear (p : Panel) (hf : f.isStart mode = false) :
    (p.hear mode f).entries.map Entry.role = p.entries.map Entry.role := by
  rcases hear_cases mode f with ⟨hf', _⟩ | ⟨_, hhear | ⟨failure, hhear⟩ | ⟨_, kind, _, hhear⟩⟩
  · rw [hf] at hf'
    cases hf'
  · rw [hhear]
  · rw [hhear]
    unfold Panel.closeTurn
    exact map_role_onTurn fun _ _ => rfl
  · rw [hhear]
    exact map_role_onTurn fun _ _ => rfl

theorem map_role_foldl_hear (p : Panel) (hf : ∀ f ∈ frames, f.isStart mode = false) :
    (frames.foldl (fun p f => p.hear mode f) p).entries.map Entry.role =
      p.entries.map Entry.role := by
  induction frames generalizing p with
  | nil => rfl
  | cons f frames ih =>
    rw [List.foldl_cons, ih _ fun g hg => hf g (List.mem_cons_of_mem f hg)]
    exact map_role_hear p (hf f List.mem_cons_self)

/-- A turn with at most one start is a prompt and one reply; in the panel that builds sites there is
no reply before the start. -/
theorem roles_turn (text : String) (h : frames.countP (·.isStart mode) ≤ 1) :
    (turn mode text frames).entries.map Entry.role = [.user, .assistant] ∨
      mode = .webCreator ∧ (turn mode text frames).entries.map Entry.role = [.user] := by
  by_cases hstart : ∃ f ∈ frames, f.isStart mode = true
  · obtain ⟨f, hmem, hf⟩ := hstart
    obtain ⟨before, after, rfl⟩ := List.append_of_mem hmem
    rw [List.countP_append, List.countP_cons, if_pos hf] at h
    have hnone : ∀ {fs : List Frame}, fs.countP (·.isStart mode) = 0 →
        ∀ g ∈ fs, g.isStart mode = false := by
      intro fs hfs g hg
      exact Bool.eq_false_iff.mpr (List.countP_eq_zero.mp hfs g hg)
    have hbefore : ∀ g ∈ before, g.isStart mode = false := hnone (by omega)
    have hafter : ∀ g ∈ after, g.isStart mode = false := hnone (by omega)
    rw [turn_of_idle hbefore]
    unfold turn
    rw [List.foldl_cons, map_role_foldl_hear _ hafter, hear_of_isStart hf]
    left
    cases mode <;> rfl
  · have hnone : ∀ f ∈ frames, f.isStart mode = false := by
      intro f hf
      exact Bool.eq_false_iff.mpr fun e => hstart ⟨f, hf, e⟩
    unfold turn
    rw [map_role_foldl_hear _ hnone]
    cases mode with
    | workflow => exact .inl rfl
    | webCreator => exact .inr ⟨rfl, rfl⟩

end Panel

end PromptStudio
