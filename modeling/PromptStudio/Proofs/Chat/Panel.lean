import Mathlib.Data.List.Basic
import PromptStudio.Chat.Panel

/-!
# What a panel keeps

A panel is asked something (`ask`) and hears the frames of a stream (`hear`). `Keeps` is the
invariant of both: the transcript starts with given entries, the last of which is a prompt, and the
active turn, if there is one, comes after them. A start event takes up a reply only at the end of
the transcript, and what is at the end of these entries is no reply, so no event reaches them.
-/

namespace PromptStudio

section LastIndex

variable {α β : Type} {p : α → Bool}

theorem lastIndex?_append (p : α → Bool) (xs ys : List α) :
    lastIndex? p (xs ++ ys) = ((lastIndex? p ys).map (xs.length + ·)).or (lastIndex? p xs) := by
  induction xs with
  | nil => cases h : lastIndex? p ys <;> simp [lastIndex?, h]
  | cons x xs ih =>
    rw [List.cons_append, lastIndex?, ih]
    cases lastIndex? p ys with
    | none => rfl
    | some i =>
      show some (xs.length + i + 1) = some (xs.length + 1 + i)
      rw [Nat.add_right_comm]

theorem lastIndex?_map (p : β → Bool) (f : α → β) (xs : List α) :
    lastIndex? p (xs.map f) = lastIndex? (p ∘ f) xs := by
  induction xs with
  | nil => rfl
  | cons x xs ih =>
    rw [List.map_cons, lastIndex?, ih]
    rfl

theorem lastIndex?_concat {x : α} (xs : List α) (h : p x = true) :
    lastIndex? p (xs ++ [x]) = some xs.length := by
  rw [lastIndex?_append]
  simp [lastIndex?, h]

end LastIndex

/-- The frame is read as an event that opens a turn. -/
def Frame.isStart (f : Frame) (mode : Mode) : Bool :=
  match mode with
  | .workflow =>
    match (EventFamily.ofFrame? f : Option BuildEvent) with
    | some (.start _) => true
    | _ => false
  | .webCreator =>
    match (EventFamily.ofFrame? f : Option SiteEvent) with
    | some (.start _ _) => true
    | _ => false

namespace Panel

variable {p q : Panel} {pre : List Entry} {i : Nat}

/-! ## Prompts and frames -/

/-- The prompt that a panel records next. -/
def nextPrompt (p : Panel) (text : String) : Entry :=
  .prompt (idOf p.mode (p.issued + 1)) (idOf p.mode (p.issued + 2)) p.mode text

/-- The panel after a prompt: no turn is active, and the panel that builds workflows also shows an
empty reply. -/
def ask (p : Panel) (mode : Mode) (text : String) : Panel :=
  match mode with
  | .workflow =>
    { p with
      entries := p.entries ++ [p.nextPrompt text, Entry.loading (idOf p.mode (p.issued + 3)) p.mode]
      active := none
      issued := p.issued + 3 }
  | .webCreator =>
    { p with entries := p.entries ++ [p.nextPrompt text], active := none, issued := p.issued + 2 }

/-- Applies what a frame of a panel's stream was read as. -/
def hear (p : Panel) (mode : Mode) (f : Frame) : Panel :=
  match mode with
  | .workflow => (p.applyBuild? (EventFamily.ofFrame? f)).1
  | .webCreator => (p.applySite? (EventFamily.ofFrame? f)).1

theorem hear_workflow (p : Panel) (f : Frame) :
    p.hear .workflow f =
      (EventFamily.ofFrame? f : Option BuildEvent).elim p fun e => (p.applyBuild e).1 := by
  unfold hear applyBuild?
  cases (EventFamily.ofFrame? f : Option BuildEvent) <;> rfl

theorem hear_webCreator (p : Panel) (f : Frame) :
    p.hear .webCreator f =
      (EventFamily.ofFrame? f : Option SiteEvent).elim p fun e => (p.applySite e).1 := by
  unfold hear applySite?
  cases (EventFamily.ofFrame? f : Option SiteEvent) <;> rfl

@[simp] theorem active_ask (p : Panel) (mode : Mode) (text : String) :
    (p.ask mode text).active = none := by
  cases mode <;> rfl

@[simp] theorem mode_ask (p : Panel) (mode : Mode) (text : String) :
    (p.ask mode text).mode = p.mode := by
  cases mode <;> rfl

/-- The prompt follows what was there. -/
theorem prefix_ask (p : Panel) (mode : Mode) (text : String) :
    p.entries ++ [p.nextPrompt text] <+: (p.ask mode text).entries := by
  cases mode with
  | workflow =>
    show _ <+: p.entries ++ ([p.nextPrompt text] ++ [_])
    rw [← List.append_assoc]
    exact List.prefix_append _ _
  | webCreator => exact List.prefix_refl _

/-! ## The active turn -/

theorem detach_of_active (h : p.active = none) : p.detach = p := by
  unfold detach
  rw [← h]

/-- The position of the active turn depends on the ids alone. -/
theorem activeIndex?_congr (ha : q.active = p.active)
    (hids : q.entries.map Entry.id = p.entries.map Entry.id) : q.activeIndex? = p.activeIndex? := by
  have hids' : ∀ id : String, lastIndex? (fun e : Entry => e.id == id) q.entries =
      lastIndex? (fun e : Entry => e.id == id) p.entries := by
    intro id
    have hmap := congrArg (lastIndex? fun x : String => x == id) hids
    rw [lastIndex?_map, lastIndex?_map] at hmap
    exact hmap
  unfold activeIndex?
  rw [ha]
  exact congrArg p.active.bind (funext hids')

theorem activeIndex?_of_active (h : p.active = none) : p.activeIndex? = none := by
  unfold activeIndex?
  rw [h]
  rfl

/-- A turn whose entry comes last is at the end. -/
theorem activeIndex?_concat {es : List Entry} {e : Entry} (he : p.entries = es ++ [e])
    (ha : p.active = some e.id) : p.activeIndex? = some es.length := by
  unfold activeIndex?
  rw [ha, he]
  exact lastIndex?_concat es (beq_self_eq_true e.id)

theorem map_id_set {es : List Entry} {e e' : Entry} (he : es[i]? = some e) (hid : e'.id = e.id) :
    (es.set i e').map Entry.id = es.map Entry.id := by
  have hmap : (es.map Entry.id)[i]? = some e'.id := by rw [List.getElem?_map, he, hid]; rfl
  obtain ⟨hi, hget⟩ := List.getElem?_eq_some_iff.mp hmap
  rw [List.map_set, ← hget, List.set_getElem_self]

/-! ## The invariant -/

/-- The transcript starts with these entries, which end with a prompt, and the active turn comes
after them. -/
structure Keeps (p : Panel) (pre : List Entry) : Prop where
  starts : pre <+: p.entries
  ends : ∀ e, pre.getLast? = some e → e.role = .user
  beyond : ∀ i, p.activeIndex? = some i → pre.length ≤ i

theorem Keeps.detach (h : p.Keeps pre) : p.detach.Keeps pre where
  starts := h.starts
  ends := h.ends
  beyond i hi := by
    rw [activeIndex?_of_active rfl] at hi
    cases hi

/-- A prompt is recorded behind what is kept. -/
theorem Keeps.ask (h : p.Keeps pre) (mode : Mode) (text : String) :
    (p.ask mode text).Keeps pre where
  starts := h.starts.trans ((List.prefix_append _ _).trans (prefix_ask p mode text))
  ends := h.ends
  beyond i hi := by
    rw [activeIndex?_of_active (active_ask p mode text)] at hi
    cases hi

/-- What a prompt finds in the transcript is kept from then on, and so is the prompt. -/
theorem keeps_ask (p : Panel) (mode : Mode) (text : String) :
    (p.ask mode text).Keeps (p.entries ++ [p.nextPrompt text]) where
  starts := prefix_ask p mode text
  ends e he := by
    rw [List.getLast?_concat] at he
    obtain rfl := Option.some.inj he
    rfl
  beyond i hi := by
    rw [activeIndex?_of_active (active_ask p mode text)] at hi
    cases hi

/-- The entry at a position behind what is kept may be replaced by one of the same id. -/
theorem Keeps.set {e e' : Entry} (h : p.Keeps pre) (hi : pre.length ≤ i)
    (he : p.entries[i]? = some e) (hid : e'.id = e.id) (n : Nat) :
    ({ p with entries := p.entries.set i e', issued := n } : Panel).Keeps pre where
  starts := by
    obtain ⟨es, hes⟩ := h.starts
    rw [← hes, List.set_append_right _ _ hi]
    exact List.prefix_append _ _
  ends := h.ends
  beyond j hj := by
    have hsame : ({ p with entries := p.entries.set i e', issued := n } : Panel).activeIndex? =
        p.activeIndex? := activeIndex?_congr rfl (map_id_set he hid)
    exact h.beyond j (hsame ▸ hj)

theorem Keeps.onTurn {change : Entry → Nat → Entry × Nat} (h : p.Keeps pre)
    (hid : ∀ e n, (change e n).1.id = e.id) : (p.onTurn change).1.Keeps pre := by
  unfold Panel.onTurn
  cases hi : p.activeIndex? with
  | none => exact h
  | some i =>
    dsimp only
    cases he : p.entries[i]? with
    | none => exact h
    | some e => exact h.set (h.beyond i hi) he (hid e p.issued) _

theorem Keeps.closeTurn (h : p.Keeps pre) (failure : Option String) :
    (p.closeTurn failure).1.Keeps pre := by
  unfold Panel.closeTurn
  exact Keeps.detach (h.onTurn fun _ _ => rfl)

/-- Finishing the active turn replaces one entry behind what is kept. -/
theorem Keeps.settle (h : p.Keeps pre) : ({ p with entries := p.settle } : Panel).Keeps pre := by
  unfold Panel.settle
  cases hi : p.activeIndex? with
  | none => exact h
  | some i =>
    dsimp only
    rw [List.modify_eq_set_getElem?]
    cases he : p.entries[i]? with
    | none => exact h
    | some e =>
      have hid : ({ e with kind := some .message } : Entry).id = e.id := rfl
      exact h.set (h.beyond i hi) he hid p.issued

/-- A turn is opened behind what is kept: no placeholder ends it. -/
theorem Keeps.openTurn (h : p.Keeps pre) : p.openTurn.Keeps pre := by
  have hstarts : pre <+: p.settle := h.settle.starts
  unfold Panel.openTurn
  dsimp only
  cases hlast : p.settle.getLast?.filter (isPlaceholder p.active) with
  | none =>
    refine ⟨hstarts.trans (List.prefix_append _ _), h.ends, fun i hi => ?_⟩
    rw [activeIndex?_concat rfl rfl, Option.some.injEq] at hi
    exact hi ▸ hstarts.length_le
  | some e =>
    obtain ⟨hlast, hplace⟩ := Option.filter_eq_some_iff.mp hlast
    obtain ⟨es, hes⟩ := List.getLast?_eq_some_iff.mp hlast
    refine ⟨hstarts, h.ends, fun i hi => ?_⟩
    rw [activeIndex?_concat hes rfl, Option.some.injEq] at hi
    subst hi
    -- a placeholder is a reply, so what is kept does not reach to the end
    rcases Nat.lt_or_ge es.length pre.length with hlt | hge
    · have heq : pre = p.settle := by
        refine hstarts.eq_of_length_le ?_
        rw [hes, List.length_append]
        exact hlt
      have hrole := h.ends e (heq ▸ hlast)
      simp [isPlaceholder, hrole] at hplace
    · exact hge

theorem Keeps.applySite (h : p.Keeps pre) (e : SiteEvent) : (p.applySite e).1.Keeps pre := by
  cases e with
  | start _ _ => exact h.openTurn
  | ping _ => exact h
  | done _ | error _ _ => exact h.closeTurn _
  | delta _ | toolCall _ | toolOutput _ _ | progress _ _ | log _ | deployed _ _ =>
    exact h.onTurn fun _ _ => rfl

theorem Keeps.applyBuild (h : p.Keeps pre) (e : BuildEvent) : (p.applyBuild e).1.Keeps pre := by
  cases e with
  | start _ => exact h.openTurn
  | phase _ _ => exact h.onTurn fun _ _ => rfl
  | ping _ => exact h
  | done _ | error _ _ _ => exact h.closeTurn _

/-- No frame reaches what is kept. -/
theorem Keeps.hear (h : p.Keeps pre) (mode : Mode) (f : Frame) : (p.hear mode f).Keeps pre := by
  cases mode with
  | workflow =>
    unfold Panel.hear applyBuild?
    cases (EventFamily.ofFrame? f : Option BuildEvent) with
    | none => exact h
    | some e => exact h.applyBuild e
  | webCreator =>
    unfold Panel.hear applySite?
    cases (EventFamily.ofFrame? f : Option SiteEvent) with
    | none => exact h
    | some e => exact h.applySite e

end Panel

end PromptStudio
