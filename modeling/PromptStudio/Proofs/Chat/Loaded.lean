import Mathlib.Data.List.DropRight
import Mathlib.Data.List.Induction
import PromptStudio.Proofs.Chat.Growth

/-!
# Stored conversations

A stored conversation may bear any ids, and the panel goes on counting from where it was. `Since`
relates a panel to what the last load has left: what has been added bears the ids handed out since,
every entry is in its place, and the active turn is a reply added since, or else an empty reply at
the end of what was loaded. From that follow when ids are unique and which prompts an event can
change (`loaded_ids_and_prompts`).
-/

namespace PromptStudio

/-- The ids of an entry's items. -/
def Entry.itemIds (e : Entry) : List String := e.content.map Item.id

/-- What has become of an entry bears its id and has its role, and is an empty loading reply only if
the entry was one. -/
structure Entry.Becomes (e e' : Entry) : Prop where
  id_eq : e'.id = e.id
  role_eq : e'.role = e.role
  placeholder : Panel.isPlaceholder none e' = true → Panel.isPlaceholder none e = true

section LastIndex

variable {α : Type} {p : α → Bool} {xs : List α} {i j : Nat} {y : α}

theorem le_of_lastIndex?_eq_some (h : lastIndex? p xs = some i) (hy : xs[j]? = some y)
    (hp : p y = true) : j ≤ i := by
  induction xs generalizing i j with
  | nil => cases h
  | cons x xs ih =>
    rw [lastIndex?] at h
    cases hrest : lastIndex? p xs with
    | some k =>
      rw [hrest] at h
      obtain rfl := Option.some.inj h
      cases j with
      | zero => exact Nat.zero_le _
      | succ j => exact Nat.succ_le_succ (ih hrest hy)
    | none =>
      rw [hrest] at h
      cases j with
      | zero => exact Nat.zero_le _
      | succ j =>
        -- a later element that satisfies `p` would have been found
        rw [List.getElem?_cons_succ] at hy
        obtain ⟨as, bs, rfl⟩ := List.append_of_mem (List.mem_of_getElem? hy)
        rw [lastIndex?_append, lastIndex?] at hrest
        cases hbs : lastIndex? p bs <;> simp [hbs, hp] at hrest

end LastIndex

namespace Panel

variable {b p q : Panel} {e e' : Entry} {i k : Nat}

/-- The ids of all items of the transcript. -/
def itemIds (p : Panel) : List String := p.entries.flatMap Entry.itemIds

/-! ## Ids handed out since -/

/-- The panel `p` shows what `b` shows and more, and all that is new bears the ids handed out since,
each once. -/
structure Extends (b p : Panel) : Prop where
  mode_eq : p.mode = b.mode
  ids : ∃ k es is, p.issued = b.issued + k ∧
    p.entries.map Entry.id = b.entries.map Entry.id ++ es ∧
    p.itemIds.Perm (b.itemIds ++ is) ∧ (es ++ is).Perm (idsAfter b.mode b.issued k)

namespace Extends

/-- Nothing that has an id is new. -/
theorem of_eq (hmode : p.mode = b.mode) (hissued : p.issued = b.issued)
    (hids : p.entries.map Entry.id = b.entries.map Entry.id) (hitems : p.itemIds = b.itemIds) :
    b.Extends p where
  mode_eq := hmode
  ids := ⟨0, [], [], hissued, by rw [hids, List.append_nil], by rw [hitems, List.append_nil],
    .refl _⟩

theorem refl (p : Panel) : p.Extends p := .of_eq rfl rfl rfl rfl

theorem trans (h : b.Extends p) (h' : p.Extends q) : b.Extends q where
  mode_eq := h'.mode_eq.trans h.mode_eq
  ids := by
    obtain ⟨k, es, is, hissued, hids, hitems, hnew⟩ := h.ids
    obtain ⟨l, es', is', hissued', hids', hitems', hnew'⟩ := h'.ids
    refine ⟨k + l, es ++ es', is ++ is', by omega, ?_, ?_, ?_⟩
    · rw [hids', hids, List.append_assoc]
    · rw [← List.append_assoc]
      exact hitems'.trans (hitems.append_right is')
    · rw [h.mode_eq, hissued] at hnew'
      rw [idsAfter_add]
      refine List.Perm.trans ?_ (hnew.append hnew')
      rw [List.append_assoc, List.append_assoc]
      refine .append_left es ?_
      rw [← List.append_assoc, ← List.append_assoc]
      exact List.perm_append_comm.append_right is'

/-- An entry is added that bears the next ids. -/
theorem add (hids : e.id :: e.itemIds = idsAfter p.mode p.issued k) :
    p.Extends { p with entries := p.entries ++ [e], issued := p.issued + k } where
  mode_eq := rfl
  ids := by
    refine ⟨k, [e.id], e.itemIds, rfl, List.map_append, ?_, .of_eq hids⟩
    show List.Perm ((p.entries ++ [e]).flatMap Entry.itemIds) _
    rw [List.flatMap_append, List.flatMap_singleton]
    exact .refl _

/-- An entry is replaced by one of the same id whose further items bear the next ids. -/
theorem revise (he : p.entries[i]? = some e) (hid : e'.id = e.id)
    (hids : e'.itemIds = e.itemIds ++ idsAfter p.mode p.issued k) :
    p.Extends { p with entries := p.entries.set i e', issued := p.issued + k } where
  mode_eq := rfl
  ids := by
    refine ⟨k, [], _, rfl, ?_, ?_, .refl _⟩
    · rw [List.append_nil]
      exact map_id_set he hid
    · obtain ⟨hi, rfl⟩ := List.getElem?_eq_some_iff.mp he
      have hsplit : p.itemIds = (p.entries.take i).flatMap Entry.itemIds ++
          (p.entries[i].itemIds ++ (p.entries.drop (i + 1)).flatMap Entry.itemIds) := by
        rw [← List.flatMap_cons, List.getElem_cons_drop, ← List.flatMap_append,
          List.take_append_drop]
        rfl
      show List.Perm ((p.entries.set i e').flatMap Entry.itemIds) _
      rw [List.set_eq_take_append_cons_drop, if_pos hi, List.flatMap_append, List.flatMap_cons,
        hids, hsplit, List.append_assoc, List.append_assoc, List.append_assoc]
      exact (List.perm_append_comm.append_left _).append_left _

theorem onTurn {change : Entry → Nat → Entry × Nat} (hid : ∀ e n, (change e n).1.id = e.id)
    (hids : ∀ e, ∃ k, (change e p.issued).2 = p.issued + k ∧
      (change e p.issued).1.itemIds = e.itemIds ++ idsAfter p.mode p.issued k) :
    p.Extends (p.onTurn change).1 := by
  rcases onTurn_cases p change with ⟨_, hturn⟩ | ⟨i, e, _, he, _, hturn⟩
  · rw [hturn]
    exact .refl p
  · rw [hturn]
    obtain ⟨k, hissued, hitems⟩ := hids e
    dsimp only
    rw [hissued]
    exact revise he (hid e p.issued) hitems

theorem settle (p : Panel) : p.Extends { p with entries := p.settle } := by
  rcases settle_cases p with ⟨_, hsettle⟩ | ⟨i, e, _, he, _, hsettle⟩
  · rw [hsettle]
    exact .refl p
  · rw [hsettle]
    exact revise (k := 0) he rfl (List.append_nil _).symm

theorem detach (h : b.Extends p) : b.Extends p.detach := ⟨h.mode_eq, h.ids⟩

theorem openTurn (p : Panel) : p.Extends p.openTurn := by
  rcases openTurn_cases p with ⟨e, _, _, hopen⟩ | hopen
  · rw [hopen]
    exact ⟨rfl, (settle p).ids⟩
  · rw [hopen]
    have hadd := add (p := { p with entries := p.settle })
      (e := Entry.loading (idOf p.mode (p.issued + 1)) p.mode) (idsAfter_one p.mode p.issued).symm
    exact ⟨rfl, ((settle p).trans hadd).ids⟩

/-- Every input hands out ids to what it adds. -/
theorem feed (p : Panel) (x : Input) : p.Extends (p.feed x) := by
  cases x with
  | event x =>
    show p.Extends (p.apply x)
    rcases apply_cases x with ⟨_, hx⟩ | ⟨_, hx | ⟨failure, hx⟩ | ⟨draft, kind, hdraft, _, hx⟩⟩
    · rw [hx]
      exact openTurn p
    · rw [hx]
      exact .refl p
    · rw [hx]
      unfold closeTurn
      exact (onTurn (fun _ _ => rfl) fun e => ⟨0, rfl, (List.append_nil _).symm⟩).detach
    · rw [hx]
      exact onTurn (fun _ _ => rfl) fun e => (hdraft.advances ⟨p.mode, e.content, p.issued⟩).ids
  | prompt text => exact add (k := 2) rfl
  | loading => exact add (k := 1) rfl
  | detach => exact (Extends.refl p).detach

end Extends

/-! ## Entries and the active turn -/

theorem allows_becomes : Allows Entry.Becomes where
  refl _ := ⟨rfl, rfl, id⟩
  finish e error := by
    refine ⟨rfl, rfl, fun hplace => ?_⟩
    simp [isPlaceholder, Entry.isLoading] at hplace
  redraft e mode n draft kind hdraft hkind := by
    refine ⟨rfl, rfl, fun hplace => ?_⟩
    obtain ⟨⟨hrole, hload⟩, hempty⟩ : (e.role = .assistant ∧ kind e.kind = some .loading) ∧
        (draft ⟨mode, e.content, n⟩).items = [] := by
      simpa [isPlaceholder, Entry.isLoading] using hplace
    have hkind : e.kind = some .loading := by
      rcases hkind e.kind with hk | hk
      · rwa [hk] at hload
      · rw [hk] at hload
        cases hload
    have hcontent : e.content = [] := by
      have hle := (hdraft.advances ⟨mode, e.content, n⟩).grow.length_le
      rw [hempty] at hle
      exact List.eq_nil_of_length_eq_zero (Nat.le_zero.mp hle)
    simp [isPlaceholder, Entry.isLoading, hrole, hkind, hcontent]

theorem length_settle (p : Panel) : p.settle.length = p.entries.length := by
  rcases settle_cases p with ⟨_, hsettle⟩ | ⟨_, _, _, _, _, hsettle⟩ <;> simp [hsettle]

theorem isPlaceholder_none {active : Option String} (h : isPlaceholder active e = true) :
    isPlaceholder none e = true := by
  simp only [isPlaceholder, Bool.and_eq_true] at h ⊢
  exact ⟨h.1, rfl⟩

/-- An input lets go of the active turn, keeps it, or opens one. -/
theorem active_feed_cases (p : Panel) (x : Input) :
    (p.feed x).active = none ∨ (p.feed x).active = p.active ∨ p.feed x = p.openTurn := by
  cases x with
  | event x =>
    show (p.apply x).active = none ∨ (p.apply x).active = p.active ∨ p.apply x = p.openTurn
    rcases apply_cases x with ⟨_, hx⟩ | ⟨_, hx | ⟨failure, hx⟩ | ⟨_, kind, _, _, hx⟩⟩
    · exact .inr (.inr (hx p))
    · exact .inr (.inl (congrArg active (hx p)))
    · exact .inl (congrArg active (hx p))
    · exact .inr (.inl ((congrArg active (hx p)).trans (active_onTurn p _)))
  | prompt _ | loading => exact .inr (.inl rfl)
  | detach => exact .inl rfl

/-- Every entry of `b` is still in its place. -/
def InPlace (b p : Panel) : Prop :=
  ∀ (i : Nat) (e : Entry), b.entries[i]? = some e → ∃ e', p.entries[i]? = some e' ∧ e.Becomes e'

theorem InPlace.length_le (h : b.InPlace p) : b.entries.length ≤ p.entries.length := by
  by_contra hlt
  have hlt : p.entries.length < b.entries.length := Nat.lt_of_not_le hlt
  obtain ⟨_, he, _⟩ := h _ _ (List.getElem?_eq_getElem hlt)
  rw [List.getElem?_eq_none (Nat.le_refl _)] at he
  cases he

theorem InPlace.feed (h : b.InPlace p) (x : Input) : b.InPlace (p.feed x) := by
  intro i e he
  obtain ⟨e', he', hfirst⟩ := h i e he
  obtain ⟨e'', he'', hnext, _⟩ := allows_becomes.changes_feed p x i e' he'
  exact ⟨e'', he'', hnext.id_eq.trans hfirst.id_eq, hnext.role_eq.trans hfirst.role_eq,
    hfirst.placeholder ∘ hnext.placeholder⟩

/-- The active turn is a reply added since, or an empty loading reply at the end of what was
loaded. -/
def Anchored (b p : Panel) : Prop :=
  ∀ id, p.active = some id →
    (∃ (j : Nat) (e : Entry), b.entries.length ≤ j ∧ p.entries[j]? = some e ∧ e.id = id ∧
      e.role = .assistant) ∨
      ∃ l, b.entries.getLast? = some l ∧ isPlaceholder none l = true ∧ l.id = id

/-- A start takes up a reply that was added, or the one at the end of what was loaded, or adds
one. -/
theorem InPlace.anchored_openTurn (h : b.InPlace p) (hopened : b.InPlace p.openTurn) :
    b.Anchored p.openTurn := by
  intro id ha
  have hlen : b.entries.length ≤ p.settle.length := length_settle p ▸ h.length_le
  rcases openTurn_cases p with ⟨e, hlast, he, hopen⟩ | hopen
  · rw [hopen] at ha hopened ⊢
    obtain rfl := Option.some.inj ha
    rw [List.getLast?_eq_getElem?] at hlast
    rcases Nat.lt_or_ge (p.settle.length - 1) b.entries.length with hlt | hge
    · -- nothing has been added, so the placeholder was loaded
      have hsame : p.settle.length - 1 = b.entries.length - 1 := by omega
      obtain ⟨e', he', hbecomes⟩ := hopened _ _ (List.getElem?_eq_getElem hlt)
      obtain rfl := Option.some.inj (hlast.symm.trans he')
      refine .inr ⟨_, ?_, hbecomes.placeholder (isPlaceholder_none he), hbecomes.id_eq.symm⟩
      rw [List.getLast?_eq_getElem?, ← hsame, List.getElem?_eq_getElem hlt]
    · refine .inl ⟨_, e, hge, hlast, rfl, ?_⟩
      simp only [isPlaceholder, Bool.and_eq_true, decide_eq_true_eq] at he
      exact he.1.1.1
  · rw [hopen] at ha ⊢
    exact .inl ⟨_, _, hlen, List.getElem?_concat_length, Option.some.inj ha, rfl⟩

theorem Anchored.feed (h : b.Anchored p) (hplace : b.InPlace p) (x : Input) :
    b.Anchored (p.feed x) := by
  rcases active_feed_cases p x with hnone | hsame | hopen
  · intro id ha
    rw [hnone] at ha
    cases ha
  · intro id ha
    rcases h id (hsame ▸ ha) with ⟨j, e, hj, he, hid, hrole⟩ | hloaded
    · obtain ⟨e', he', hbecomes, _⟩ := allows_becomes.changes_feed p x j e he
      exact .inl ⟨j, e', hj, he', hbecomes.id_eq.trans hid, hbecomes.role_eq.trans hrole⟩
    · exact .inr hloaded
  · have hopened := hplace.feed x
    rw [hopen] at hopened ⊢
    exact hplace.anchored_openTurn hopened

/-- What a load has left, and what has become of it since. -/
structure Since (b p : Panel) : Prop where
  grown : b.Extends p
  inPlace : b.InPlace p
  anchored : b.Anchored p

namespace Since

theorem refl (h : p.active = none) : p.Since p where
  grown := .refl p
  inPlace i e he := ⟨e, he, allows_becomes.refl e⟩
  anchored id ha := by
    rw [h] at ha
    cases ha

theorem feed (h : b.Since p) (x : Input) : b.Since (p.feed x) where
  grown := h.grown.trans (.feed p x)
  inPlace := h.inPlace.feed x
  anchored := h.anchored.feed h.inPlace x

/-- No id is handed out twice. -/
theorem eq_of_id (h : b.Since p) {j : Nat} (hi : b.entries.length ≤ i) (hj : b.entries.length ≤ j)
    (he : p.entries[i]? = some e) (he' : p.entries[j]? = some e') (hid : e.id = e'.id) : i = j := by
  obtain ⟨k, es, is, _, hids, _, hnew⟩ := h.grown.ids
  have hnodup : es.Nodup :=
    (hnew.nodup_iff.mpr (nodup_idsAfter _ _ _)).sublist (List.sublist_append_left es is)
  have hget : ∀ {n : Nat} {e : Entry}, b.entries.length ≤ n → p.entries[n]? = some e →
      es[n - b.entries.length]? = some e.id := by
    intro n e hn he
    have hmap : (p.entries.map Entry.id)[n]? = some e.id := by rw [List.getElem?_map, he]; rfl
    rwa [hids, List.getElem?_append_right (by rwa [List.length_map]), List.length_map] at hmap
  have hlt := (List.getElem?_eq_some_iff.mp (hget hi he)).1
  have hsame : i - b.entries.length = j - b.entries.length :=
    (List.getElem?_inj hlt hnodup).mp ((hget hi he).trans (hid ▸ (hget hj he').symm))
  omega

/-- An event leaves a prompt as it is, unless the prompt bears the id of an empty reply that was
loaded last and is the active turn. -/
theorem prompt_kept (h : b.Since p) (x : Event) (he : p.entries[i]? = some e)
    (huser : e.role = .user) :
    (p.apply x).entries[i]? = some e ∨
      ∃ l, b.entries.getLast? = some l ∧ isPlaceholder none l = true ∧ l.id = e.id ∧
        p.active = some e.id ∧ b.entries.length ≤ i := by
  obtain ⟨e', he', _, hsame⟩ := allows_becomes.changes_feed p (.event x) i e he
  by_cases hi : p.activeIndex? = some i
  swap
  · rw [hsame hi] at he'
    exact .inl he'
  obtain ⟨e₀, he₀, ha⟩ := activeIndex?_eq_some hi
  obtain rfl := Option.some.inj (he.symm.trans he₀)
  have hlast : ∀ {j : Nat} {y : Entry}, p.entries[j]? = some y → y.id = e.id → j ≤ i := by
    intro j y hy hid
    unfold activeIndex? at hi
    rw [ha, Option.bind_some] at hi
    exact le_of_lastIndex?_eq_some hi hy (beq_iff_eq.mpr hid)
  rcases h.anchored e.id ha with ⟨j, y, hj, hy, hid, hrole⟩ | ⟨l, hl, hplace, hid⟩
  · -- the active turn was added, so it is this entry, which is no reply
    have hji := hlast hy hid
    obtain rfl := h.eq_of_id hj (hj.trans hji) hy he hid
    obtain rfl := Option.some.inj (hy.symm.trans he)
    rw [huser] at hrole
    cases hrole
  · refine .inr ⟨l, hl, hplace, hid, ha, ?_⟩
    -- the entry that was loaded last is a reply with this id
    rw [List.getLast?_eq_getElem?] at hl
    obtain ⟨y, hy, hbecomes⟩ := h.inPlace _ _ hl
    have hji := hlast hy (hbecomes.id_eq.trans hid)
    by_contra hlt
    have hsame : b.entries.length - 1 = i := by omega
    rw [hsame, he] at hy
    obtain rfl := Option.some.inj hy
    simp only [isPlaceholder, Bool.and_eq_true, decide_eq_true_eq] at hplace
    rw [hbecomes.role_eq, hplace.1.1.1] at huser
    cases huser

end Since

/-! ## Steps -/

/-- What happens to a panel: an input, or the loading of a stored conversation. -/
inductive Step
  | input (x : Input)
  | load (entries : List Entry)

/-- The step loads nothing. -/
def Step.isInput : Step → Bool
  | .input _ => true
  | .load _ => false

/-- What a step does. -/
def step (p : Panel) : Step → Panel
  | .input x => p.feed x
  | .load entries => p.load entries

/-- A new panel after these steps. -/
def ofSteps (mode : Mode) (steps : List Step) : Panel := steps.foldl step { mode }

/-- What the last load has left: a new panel after the steps up to that load. Without a load that is
a new panel. -/
def ofLastLoad (mode : Mode) (steps : List Step) : Panel :=
  ofSteps mode (steps.rdropWhile Step.isInput)

theorem ofSteps_concat (mode : Mode) (steps : List Step) (x : Step) :
    ofSteps mode (steps ++ [x]) = (ofSteps mode steps).step x := by
  unfold ofSteps
  rw [List.foldl_append]
  rfl

theorem ofLastLoad_input (mode : Mode) (steps : List Step) (x : Input) :
    ofLastLoad mode (steps ++ [.input x]) = ofLastLoad mode steps := by
  unfold ofLastLoad
  rw [List.rdropWhile_concat_pos _ _ _ rfl]

theorem ofLastLoad_load (mode : Mode) (steps : List Step) (entries : List Entry) :
    ofLastLoad mode (steps ++ [.load entries]) = (ofSteps mode steps).load entries := by
  unfold ofLastLoad
  rw [List.rdropWhile_concat_neg _ _ _ Bool.false_ne_true, ofSteps_concat]
  rfl

theorem since_ofSteps (mode : Mode) (steps : List Step) :
    (ofLastLoad mode steps).Since (ofSteps mode steps) := by
  induction steps using List.reverseRecOn with
  | nil => exact .refl rfl
  | append_singleton steps x ih =>
    rw [ofSteps_concat]
    cases x with
    | input x =>
      rw [ofLastLoad_input]
      exact ih.feed x
    | load entries =>
      rw [ofLastLoad_load]
      exact .refl rfl

theorem mode_ofSteps (mode : Mode) (steps : List Step) : (ofSteps mode steps).mode = mode := by
  unfold ofSteps
  refine List.foldlRecOn (motive := fun p : Panel => p.mode = mode) steps step rfl ?_
  intro p hp x _
  cases x with
  | input x => exact (Extends.feed p x).mode_eq.trans hp
  | load _ => exact hp

/-- The ids of what was loaded last are as different as those of every conversation loaded. -/
theorem nodup_ofLastLoad (mode : Mode) {steps : List Step}
    (h : ∀ entries, .load entries ∈ steps →
      (entries.map Entry.id).Nodup ∧ (entries.flatMap Entry.itemIds).Nodup) :
    ((ofLastLoad mode steps).entries.map Entry.id).Nodup ∧
      (ofLastLoad mode steps).itemIds.Nodup := by
  induction steps using List.reverseRecOn with
  | nil => exact ⟨.nil, .nil⟩
  | append_singleton steps x ih =>
    cases x with
    | input x =>
      rw [ofLastLoad_input]
      exact ih fun entries hmem => h entries (List.mem_append_left _ hmem)
    | load entries =>
      rw [ofLastLoad_load]
      exact h entries List.mem_concat_self

/-- Which ids are unique after loads, and which prompts stay. What has been added since the last
load bears the ids handed out since, each once. So if the ids of a loaded conversation are
different, then ids are unique exactly if no entry added since bears the id of a loaded entry, and
no item that of a loaded item. An event changes a prompt only if that was added since the load and
bears the id of the active turn, an empty loading reply that was loaded last. -/
theorem loaded_ids_and_prompts (mode : Mode) (steps : List Step)
    (h : ∀ entries, .load entries ∈ steps →
      (entries.map Entry.id).Nodup ∧ (entries.flatMap Entry.itemIds).Nodup) :
    let b := ofLastLoad mode steps
    let p := ofSteps mode steps
    (∃ es is, p.entries.map Entry.id = b.entries.map Entry.id ++ es ∧
        p.itemIds.Perm (b.itemIds ++ is) ∧
        (es ++ is).Perm (idsAfter mode b.issued (p.issued - b.issued)) ∧
        ((p.entries.map Entry.id).Nodup ∧ p.itemIds.Nodup ↔
          (b.entries.map Entry.id).Disjoint es ∧ b.itemIds.Disjoint is)) ∧
      ∀ (x : Event) (i : Nat) (e : Entry), p.entries[i]? = some e → e.role = .user →
        (p.apply x).entries[i]? = some e ∨
          ∃ l, b.entries.getLast? = some l ∧ isPlaceholder none l = true ∧ l.id = e.id ∧
            p.active = some e.id ∧ b.entries.length ≤ i := by
  intro b p
  have hsince : b.Since p := since_ofSteps mode steps
  refine ⟨?_, fun x i e he huser => hsince.prompt_kept x he huser⟩
  obtain ⟨k, es, is, hissued, hids, hitems, hnew⟩ := hsince.grown.ids
  have hmode : b.mode = mode := mode_ofSteps mode _
  have hk : p.issued - b.issued = k := by omega
  rw [hmode, ← hk] at hnew
  refine ⟨es, is, hids, hitems, hnew, ?_⟩
  obtain ⟨hentries, hloaded⟩ := nodup_ofLastLoad mode h
  have hfresh : (es ++ is).Nodup := hnew.nodup_iff.mpr (nodup_idsAfter _ _ _)
  obtain ⟨hes, his, _⟩ := List.nodup_append'.mp hfresh
  rw [hids, hitems.nodup_iff, List.nodup_append', List.nodup_append']
  exact ⟨fun ⟨he, hi⟩ => ⟨he.2.2, hi.2.2⟩, fun ⟨he, hi⟩ => ⟨⟨hentries, hes, he⟩, hloaded, his, hi⟩⟩

/-- A conversation that bears the first ids is loaded when the panel has counted past them. -/
theorem loaded_ids_and_prompts_past :
    let stored := [Entry.prompt "wc-1" "wc-2" .webCreator "hi", .loading "wc-3" .webCreator]
    let steps : List Step := [.input (.prompt "hi"), .input .loading, .load stored,
      .input (.event (.site (some (.start "t" none)))),
      .input (.event (.site (some (.delta "x"))))]
    let p := ofSteps .webCreator steps
    ((stored.map Entry.id).Nodup ∧ (stored.flatMap Entry.itemIds).Nodup) ∧
      p.itemIds = ["wc-2", "wc-4"] ∧ (p.entries.map Entry.id).Nodup ∧ p.itemIds.Nodup := by
  intro stored steps p
  have hstored : (stored.map Entry.id).Nodup ∧ (stored.flatMap Entry.itemIds).Nodup := by decide
  have hloads : ∀ entries, .load entries ∈ steps →
      (entries.map Entry.id).Nodup ∧ (entries.flatMap Entry.itemIds).Nodup := by
    intro entries hmem
    obtain rfl : entries = stored := by simpa [steps] using hmem
    exact hstored
  obtain ⟨⟨es, is, _, _, hnew, hiff⟩, _⟩ := loaded_ids_and_prompts .webCreator steps hloads
  have hfresh : idsAfter .webCreator (ofLastLoad .webCreator steps).issued
      ((ofSteps .webCreator steps).issued - (ofLastLoad .webCreator steps).issued) = ["wc-4"] := by
    cbv
  have hids : ∀ id ∈ es ++ is, id = "wc-4" := fun id hid =>
    List.mem_singleton.mp (hfresh ▸ hnew.subset hid)
  refine ⟨hstored, by cbv, hiff.mpr ⟨fun id hold hnew => ?_, fun id hold hnew => ?_⟩⟩
  · obtain rfl := hids id (List.mem_append_left _ hnew)
    exact absurd hold (by decide)
  · obtain rfl := hids id (List.mem_append_right _ hnew)
    exact absurd hold (by decide)

/-- The id of a loaded reply, which a start takes up, is handed out again to a prompt. Then the ids
of the entries are not unique, and the rest of the reply is added to the prompt. -/
theorem reissued_id_changes_prompt :
    let stored := [Entry.loading "wc-1" .webCreator]
    let p := ofSteps .webCreator [.load stored,
      .input (.event (.site (some (.start "t" none)))), .input (.prompt "hi")]
    ((stored.map Entry.id).Nodup ∧ (stored.flatMap Entry.itemIds).Nodup) ∧
      p.entries.map Entry.id = ["wc-1", "wc-1"] ∧ ¬ (p.entries.map Entry.id).Nodup ∧
      p.entries[1]? = some (.prompt "wc-1" "wc-2" .webCreator "hi") ∧
      (p.apply (.site (some (.delta "x")))).entries[1]? =
        some (.prompt "wc-1" "wc-2" .webCreator "hix") ∧
      ¬ ∀ (x : Event) (i : Nat) (e : Entry), p.entries[i]? = some e → e.role = .user →
        (p.apply x).entries[i]? = some e := by
  intro stored p
  have hprompt : p.entries[1]? = some (.prompt "wc-1" "wc-2" .webCreator "hi") := by cbv
  have hchanged : (p.apply (.site (some (.delta "x")))).entries[1]? =
      some (.prompt "wc-1" "wc-2" .webCreator "hix") := by cbv
  refine ⟨by decide, by cbv, by decide, hprompt, hchanged, fun h => ?_⟩
  have hsame := (h _ 1 _ hprompt rfl).symm.trans hchanged
  simp [Entry.prompt] at hsame

end Panel

end PromptStudio
