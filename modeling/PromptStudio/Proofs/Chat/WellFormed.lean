import Mathlib.Data.List.Perm.Basic
import PromptStudio.Proofs.Chat.Event

/-!
# Well-formed transcripts

The ids in a panel's transcript are exactly those that the panel has handed out, and the active turn
is an open reply of the transcript. `WellFormed` is kept by every input (`wellFormed_feed`), so
after all inputs no id occurs twice and one entry is the active turn (`nodup_ids_and_isOpen`).
-/

namespace PromptStudio

/-- The ids of an entry and of its items. -/
def Entry.ids (e : Entry) : List String := e.id :: e.content.map Item.id

/-- A reply that may still change: it is not finished and has not failed. -/
structure Entry.IsOpen (e : Entry) : Prop where
  role : e.role = .assistant
  kind : e.kind = some .loading ∨ e.kind = some .progress
  error : e.error = none

namespace Panel

variable {p : Panel} {e e' : Entry} {i k : Nat}

/-- All ids of the transcript, those of the items included. -/
def ids (p : Panel) : List String := p.entries.flatMap Entry.ids

theorem map_id_sublist_ids (es : List Entry) :
    (es.map Entry.id).Sublist (es.flatMap Entry.ids) := by
  induction es with
  | nil => exact .slnil
  | cons e es ih => exact .cons_cons e.id (ih.trans (List.sublist_append_right _ _))

/-- Each id handed out stands in the transcript once, and the active turn is an open entry of it.
Entries shown as loading have not failed, since a start may take one up again. -/
structure WellFormed (p : Panel) : Prop where
  ids_perm : p.ids.Perm (idsAfter p.mode 0 p.issued)
  present : ∀ id, p.active = some id → id ∈ p.entries.map Entry.id
  isOpen : ∀ e ∈ p.entries, p.active = some e.id → e.IsOpen
  unfailed : ∀ e ∈ p.entries, e.isLoading → e.error = none

namespace WellFormed

theorem nodup_ids (h : p.WellFormed) : p.ids.Nodup :=
  h.ids_perm.nodup_iff.mpr (nodup_idsAfter p.mode 0 p.issued)

theorem nodup_map_id (h : p.WellFormed) : (p.entries.map Entry.id).Nodup :=
  h.nodup_ids.sublist (map_id_sublist_ids p.entries)

theorem eq_of_id (h : p.WellFormed) (he : e ∈ p.entries) (he' : e' ∈ p.entries)
    (hid : e.id = e'.id) : e = e' :=
  List.inj_on_of_nodup_map h.nodup_map_id he he' hid

/-- The active turn is one entry. -/
theorem filter_active (h : p.WellFormed) {id : String} (ha : p.active = some id) :
    ∃ e, p.entries.filter (·.id = id) = [e] ∧ e.IsOpen := by
  obtain ⟨e, he, rfl⟩ := List.mem_map.mp (h.present id ha)
  refine ⟨e, ?_, h.isOpen e he ha⟩
  obtain ⟨es, fs, hsplit⟩ := List.append_of_mem he
  have hnodup := h.nodup_map_id
  rw [hsplit, List.map_append, List.map_cons, List.nodup_middle, List.nodup_cons,
    ← List.map_append] at hnodup
  have hothers : ∀ x ∈ es ++ fs, ¬ x.id = e.id := by
    intro x hx hid
    exact hnodup.1 (hid ▸ List.mem_map_of_mem hx)
  rw [hsplit, List.filter_append, List.filter_cons_of_pos (by simp)]
  have hes : es.filter (fun x => decide (x.id = e.id)) = [] := by
    rw [List.filter_eq_nil_iff]
    intro x hx
    simpa using hothers x (List.mem_append_left _ hx)
  have hfs : fs.filter (fun x => decide (x.id = e.id)) = [] := by
    rw [List.filter_eq_nil_iff]
    intro x hx
    simpa using hothers x (List.mem_append_right _ hx)
  rw [hes, hfs]
  rfl

/-! ## What inputs are made of -/

theorem new (mode : Mode) : ({ mode } : Panel).WellFormed where
  ids_perm := .refl _
  present _ h := by cases h
  isOpen _ he := absurd he List.not_mem_nil
  unfailed _ he := absurd he List.not_mem_nil

theorem detach (h : p.WellFormed) : p.detach.WellFormed where
  ids_perm := h.ids_perm
  present _ ha := by cases ha
  isOpen _ _ ha := by cases ha
  unfailed := h.unfailed

/-- An entry is added that bears the next ids. -/
theorem add (h : p.WellFormed) (hids : e.ids = idsAfter p.mode p.issued k)
    (hunfailed : e.isLoading → e.error = none) :
    ({ p with entries := p.entries ++ [e], issued := p.issued + k } : Panel).WellFormed where
  ids_perm := by
    show ((p.entries ++ [e]).flatMap Entry.ids).Perm (idsAfter p.mode 0 (p.issued + k))
    rw [List.flatMap_append, List.flatMap_singleton, hids, idsAfter_add, Nat.zero_add]
    exact h.ids_perm.append_right _
  present id ha := by
    rw [List.map_append]
    exact List.mem_append_left _ (h.present id ha)
  isOpen x hx ha := by
    rcases List.mem_append.mp hx with hx | hx
    · exact h.isOpen x hx ha
    · -- the active turn bears an older id
      obtain rfl := List.mem_singleton.mp hx
      have hold : x.id ∈ idsAfter p.mode 0 p.issued :=
        h.ids_perm.subset ((map_id_sublist_ids p.entries).subset (h.present _ ha))
      have hnew : x.id ∈ idsAfter p.mode (0 + p.issued) k := by
        rw [Nat.zero_add, ← hids]
        exact List.mem_cons_self
      have hnodup := nodup_idsAfter p.mode 0 (p.issued + k)
      rw [idsAfter_add] at hnodup
      exact absurd rfl ((List.nodup_append.mp hnodup).2.2 _ hold _ hnew)
  unfailed x hx := by
    rcases List.mem_append.mp hx with hx | hx
    · exact h.unfailed x hx
    · obtain rfl := List.mem_singleton.mp hx
      exact hunfailed

/-- An entry is replaced by one of the same id whose further items bear the next ids. -/
theorem revise (h : p.WellFormed) (he : p.entries[i]? = some e) (hid : e'.id = e.id)
    (hids : e'.content.map Item.id = e.content.map Item.id ++ idsAfter p.mode p.issued k)
    (hopen : p.active = some e.id → e'.IsOpen) (hunfailed : e'.isLoading → e'.error = none) :
    ({ p with entries := p.entries.set i e', issued := p.issued + k } : Panel).WellFormed where
  ids_perm := by
    obtain ⟨hi, rfl⟩ := List.getElem?_eq_some_iff.mp he
    have hsplit : p.ids = (p.entries.take i).flatMap Entry.ids ++
        (p.entries[i].ids ++ (p.entries.drop (i + 1)).flatMap Entry.ids) := by
      rw [← List.flatMap_cons, List.getElem_cons_drop, ← List.flatMap_append,
        List.take_append_drop]
      rfl
    have hnew : e'.ids = p.entries[i].ids ++ idsAfter p.mode p.issued k := by
      unfold Entry.ids
      rw [hid, hids]
      rfl
    show ((p.entries.set i e').flatMap Entry.ids).Perm (idsAfter p.mode 0 (p.issued + k))
    rw [List.set_eq_take_append_cons_drop, if_pos hi, List.flatMap_append, List.flatMap_cons, hnew,
      idsAfter_add, Nat.zero_add]
    refine List.Perm.trans ?_ (h.ids_perm.append_right _)
    rw [hsplit, List.append_assoc, List.append_assoc, List.append_assoc]
    exact (List.perm_append_comm.append_left _).append_left _
  present id ha := by
    rw [map_id_set he hid]
    exact h.present id ha
  isOpen x hx ha := by
    rcases List.mem_or_eq_of_mem_set hx with hx | rfl
    · exact h.isOpen x hx ha
    · exact hopen (hid ▸ ha)
  unfailed x hx := by
    rcases List.mem_or_eq_of_mem_set hx with hx | rfl
    · exact h.unfailed x hx
    · exact hunfailed

/-- An open entry becomes the active turn. -/
theorem activate (h : p.WellFormed) (he : e ∈ p.entries) (hopen : e.IsOpen) :
    ({ p with active := some e.id } : Panel).WellFormed where
  ids_perm := h.ids_perm
  present id ha := by
    obtain rfl := Option.some.inj ha
    exact List.mem_map_of_mem he
  isOpen x hx ha := by
    obtain rfl := h.eq_of_id he hx (Option.some.inj ha)
    exact hopen
  unfailed := h.unfailed

/-! ## Inputs -/

/-- A turn that is finished is let go of at once. -/
theorem finish (h : p.WellFormed) (he : p.entries[i]? = some e) (error : Option String) :
    ({ p with
        entries := p.entries.set i { e with kind := some .message, error }
        active := none } : Panel).WellFormed := by
  refine h.detach.revise (k := 0) he rfl (List.append_nil _).symm (fun ha => ?_) fun hload => ?_
  · cases ha
  · simp [Entry.isLoading] at hload

theorem closeTurn (h : p.WellFormed) (failure : Option String) :
    (p.closeTurn failure).1.WellFormed := by
  unfold Panel.closeTurn
  rcases onTurn_cases p fun e issued =>
    ({ e with kind := some .message, error := failure.or e.error }, issued) with
    ⟨_, hturn⟩ | ⟨i, e, _, he, _, hturn⟩
  · rw [hturn]
    exact h.detach
  · rw [hturn]
    exact h.finish he _

theorem settle (h : p.WellFormed) :
    ({ p with entries := p.settle, active := none } : Panel).WellFormed := by
  rcases settle_cases p with ⟨_, hsettle⟩ | ⟨i, e, _, he, _, hsettle⟩
  · rw [hsettle]
    exact h.detach
  · rw [hsettle]
    exact h.finish he e.error

theorem openTurn (h : p.WellFormed) : p.openTurn.WellFormed := by
  rcases openTurn_cases p with ⟨e, hlast, hplace, hopen⟩ | hopen
  · rw [hopen]
    have he : e ∈ p.settle := List.mem_of_getLast? hlast
    obtain ⟨⟨⟨hrole, hload⟩, _⟩, _⟩ : ((e.role = .assistant ∧ e.isLoading) ∧ _) ∧ _ := by
      simpa [isPlaceholder] using hplace
    exact h.settle.activate he
      ⟨hrole, .inl (of_decide_eq_true hload), h.settle.unfailed e he hload⟩
  · rw [hopen]
    have hadd := h.settle.add (e := Entry.loading (idOf p.mode (p.issued + 1)) p.mode)
      (idsAfter_one p.mode p.issued).symm fun _ => rfl
    exact hadd.activate List.mem_concat_self ⟨rfl, .inl rfl, rfl⟩

theorem redraft {draft : Draft → Draft} {kind : Option EntryKind → Option EntryKind}
    (h : p.WellFormed) (hdraft : Draft.IsEdit draft)
    (hkind : ∀ k, kind k = k ∨ kind k = some .progress) : (p.redraft draft kind).WellFormed := by
  unfold Panel.redraft
  rcases onTurn_cases p _ with ⟨_, hturn⟩ | ⟨i, e, _, he, ha, hturn⟩
  · rw [hturn]
    exact h
  · rw [hturn]
    obtain ⟨k, hissued, hids⟩ :=
      (hdraft.advances { mode := p.mode, items := e.content, issued := p.issued }).ids
    dsimp only at hissued ⊢
    rw [hissued]
    have hopen : e.IsOpen := h.isOpen e (List.mem_of_getElem? he) ha
    refine h.revise he rfl hids (fun _ => ⟨hopen.role, ?_, hopen.error⟩) fun _ => hopen.error
    show kind e.kind = some .loading ∨ kind e.kind = some .progress
    rcases hkind e.kind with hk | hk
    · rw [hk]
      exact hopen.kind
    · exact .inr hk

theorem apply (h : p.WellFormed) (x : Event) : (p.apply x).WellFormed := by
  rcases apply_cases x with ⟨_, hx⟩ | ⟨_, hx | ⟨failure, hx⟩ | ⟨draft, kind, hdraft, hkind, hx⟩⟩
  · rw [hx]
    exact h.openTurn
  · rw [hx]
    exact h
  · rw [hx]
    exact h.closeTurn failure
  · rw [hx]
    exact h.redraft hdraft hkind

end WellFormed

/-- Every input keeps the transcript well formed. -/
theorem wellFormed_feed (h : p.WellFormed) (x : Input) : (p.feed x).WellFormed := by
  cases x with
  | event x => exact h.apply x
  | prompt text =>
    refine h.add (k := 2) rfl fun hload => ?_
    simp [Entry.isLoading, Entry.prompt] at hload
  | loading => exact h.add (k := 1) rfl fun _ => rfl
  | detach => exact h.detach

theorem wellFormed_ofInputs (mode : Mode) (inputs : List Input) :
    (ofInputs mode inputs).WellFormed :=
  ofInputs_induction (P := WellFormed) (.new mode) (fun _ x h => wellFormed_feed h x) inputs

/-- No id occurs twice in a transcript, neither among its entries nor among their items, and an
active turn is exactly one entry, a reply that is neither finished nor failed. -/
theorem nodup_ids_and_isOpen (mode : Mode) (inputs : List Input) :
    (ofInputs mode inputs).ids.Nodup ∧
      ∀ id, (ofInputs mode inputs).active = some id →
        ∃ e, (ofInputs mode inputs).entries.filter (·.id = id) = [e] ∧ e.IsOpen := by
  have h := wellFormed_ofInputs mode inputs
  exact ⟨h.nodup_ids, fun _ ha => h.filter_active ha⟩

end Panel

end PromptStudio
