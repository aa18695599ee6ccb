import PromptStudio.Command.Render
import PromptStudio.Proofs.Chat.Alongside

/-!
# Log lines in a printed transcript

Log lines are not printed, but text and progress that come after one are not put together with what
came before it. So deleting the log lines puts together the items that then stand side by side
(`siteText_withoutLogs`), each of which takes up one line less (`height_joined`), and the text stays
the same only if there are none (`transcriptText_joined_eq_iff`). What log lines say and how many
come in a row is not seen at all (`log_lines_only_part`).
-/

namespace PromptStudio

/-- The entry as if no log line had come. -/
def Entry.joined (e : Entry) : Entry := { e with content := Item.shown e.content }

namespace Command

open Item (KeptApart SameShown joined)

variable {i j k : Item} {is js : List Item} {e e' : Entry} {es es' : List Entry}

/-! ## What is printed -/

theorem itemLine_unnamed (i : Item) : itemLine i.unnamed = itemLine i := by
  cases i <;> rfl

/-- Ids are not printed. -/
theorem map_itemLine_eq (h : is.map Item.unnamed = js.map Item.unnamed) :
    is.map itemLine = js.map itemLine := by
  have hlines := congrArg (List.map itemLine) h
  rw [List.map_map, List.map_map] at hlines
  rwa [show itemLine ∘ Item.unnamed = itemLine from funext itemLine_unnamed] at hlines

/-- Entries are printed alike that have the same author and error and show the same items. -/
theorem entryLines_eq (hrole : e.role = e'.role) (herror : e.error = e'.error)
    (h : e.visible.map Item.unnamed = e'.visible.map Item.unnamed) :
    entryLines e = entryLines e' := by
  unfold entryLines
  rw [hrole, herror, map_itemLine_eq h]

theorem unlines_append (ls ls' : List String) :
    unlines (ls ++ ls') = unlines ls ++ unlines ls' := by
  unfold unlines
  rw [List.map_append, String.join_append]

theorem unlines_cons (l : String) (ls : List String) :
    unlines (l :: ls) = l ++ "\n" ++ unlines ls :=
  String.join_cons

theorem transcriptText_cons (e : Entry) (es : List Entry) :
    transcriptText (e :: es) = unlines (entryLines e) ++ transcriptText es := by
  unfold transcriptText
  rw [List.flatMap_cons, unlines_append]

theorem transcriptText_eq (h : List.Forall₂ (fun e e' => entryLines e = entryLines e') es es') :
    transcriptText es = transcriptText es' := by
  induction h with
  | nil => rfl
  | cons he _ ih => rw [transcriptText_cons, transcriptText_cons, he, ih]

/-! ## Line feeds -/

/-- The number of line feeds. -/
def breaks (s : String) : Nat := s.toList.count '\n'

theorem breaks_append (s t : String) : breaks (s ++ t) = breaks s + breaks t := by
  unfold breaks
  rw [String.toList_append, List.count_append]

theorem breaks_unlines_cons (l : String) (ls : List String) :
    breaks (unlines (l :: ls)) = breaks l + 1 + breaks (unlines ls) := by
  rw [unlines_cons, breaks_append, breaks_append]
  rfl

theorem breaks_toString (n : Nat) : breaks (toString n) = 0 := by
  refine List.count_eq_zero.mpr fun hmem => ?_
  rw [Nat.toString_eq_repr, Nat.toList_repr] at hmem
  have hdigit := Nat.isDigit_of_mem_toDigits (by decide) (by decide) hmem
  exact absurd hdigit (by decide)

theorem breaks_padLeft (width : Nat) (s : String) : breaks (padLeft width s) = breaks s := by
  unfold padLeft breaks
  rw [String.toList_ofList, List.count_append, List.count_replicate]
  simp

/-- The number of line feeds in the lines of these items. -/
def height (is : List Item) : Nat := breaks (unlines (is.map itemLine))

theorem height_cons (i : Item) (is : List Item) :
    height (i :: is) = breaks (itemLine i) + 1 + height is :=
  breaks_unlines_cons (itemLine i) _

theorem breaks_itemLine_join? (h : i.join? j = some k) :
    breaks (itemLine i) + breaks (itemLine j) = breaks (itemLine k) := by
  cases i <;> cases j <;> cases h
  · simp only [itemLine, breaks_append]
    rw [show breaks "  " = 0 from rfl]
    omega
  · simp only [itemLine, breaks_append, breaks_padLeft, breaks_toString]
    rfl

/-- Items that are put together take up one line less. -/
theorem height_joinTo (i : Item) (js : List Item) :
    height (i.joinTo js) + (js.length + 1) = height (i :: js) + (i.joinTo js).length := by
  cases js with
  | nil => rfl
  | cons j js =>
    cases h : i.join? j with
    | some k =>
      rw [Item.joinTo_cons_some h, height_cons, height_cons, height_cons,
        ← breaks_itemLine_join? h, List.length_cons, List.length_cons]
      omega
    | none =>
      rw [Item.joinTo_cons_none h]
      rfl

theorem height_joined (is : List Item) :
    height (joined is) + is.length = height is + (joined is).length := by
  induction is with
  | nil => rfl
  | cons i is ih =>
    have hto := height_joinTo i (joined is)
    rw [height_cons] at hto ⊢
    rw [joined, List.length_cons]
    omega

/-! ## Entries without log lines -/

theorem visible_joined (e : Entry) : e.joined.visible = joined e.visible :=
  Item.visible_shown e.content

theorem entryLines_joined (h : KeptApart e.visible) : entryLines e.joined = entryLines e := by
  refine entryLines_eq rfl rfl ?_
  rw [visible_joined, Item.joined_of_keptApart h]

theorem breaks_entryLines (e : Entry) :
    breaks (unlines (entryLines e)) = breaks (author e.role) + 1 + height e.visible +
      breaks (unlines (e.error.map ("  ! " ++ ·)).toList) := by
  unfold entryLines height
  rw [unlines_append, breaks_append, breaks_unlines_cons]

/-- An entry takes up one line less for each of its items that is taken up by the one before. -/
theorem breaks_joined (e : Entry) :
    breaks (unlines (entryLines e.joined)) + e.visible.length =
      breaks (unlines (entryLines e)) + (joined e.visible).length := by
  have hheight := height_joined e.visible
  rw [breaks_entryLines, breaks_entryLines, visible_joined]
  show breaks (author e.role) + 1 + _ + breaks (unlines (e.error.map ("  ! " ++ ·)).toList) + _ = _
  omega

theorem breaks_transcriptText_joined_le (es : List Entry) :
    breaks (transcriptText (es.map Entry.joined)) ≤ breaks (transcriptText es) := by
  induction es with
  | nil => exact Nat.le_refl _
  | cons e es ih =>
    have hentry := breaks_joined e
    have hlength := Item.length_joined_le e.visible
    rw [List.map_cons, transcriptText_cons, transcriptText_cons, breaks_append, breaks_append]
    omega

/-- As many lines are printed only if nothing is put together. -/
theorem keptApart_of_breaks
    (h : breaks (transcriptText (es.map Entry.joined)) = breaks (transcriptText es)) :
    ∀ e ∈ es, KeptApart e.visible := by
  induction es with
  | nil => exact fun e he => absurd he List.not_mem_nil
  | cons e es ih =>
    have hentry := breaks_joined e
    have hlength := Item.length_joined_le e.visible
    have hrest := breaks_transcriptText_joined_le es
    -- neither this entry nor the others get longer, so neither may get shorter
    rw [List.map_cons, transcriptText_cons, transcriptText_cons, breaks_append, breaks_append] at h
    exact List.forall_mem_cons.mpr
      ⟨Item.keptApart_of_length (by omega), ih (by omega)⟩

theorem transcriptText_joined_eq_iff (es : List Entry) :
    transcriptText (es.map Entry.joined) = transcriptText es ↔ ∀ e ∈ es, KeptApart e.visible := by
  refine ⟨fun h => keptApart_of_breaks (congrArg breaks h), fun h => ?_⟩
  refine transcriptText_eq (List.forall₂_map_left_iff.mpr (List.forall₂_same.mpr fun e he => ?_))
  exact entryLines_joined (h e he)

/-! ## Transcripts of a stream -/

/-- The transcript of a site's stream as text. -/
def siteText (sites : List (Option SiteEvent)) : String :=
  transcriptText (Panel.ofSites .webCreator sites).entries

theorem siteText_eq {sites sites' : List (Option SiteEvent)}
    (h : Panel.Alongside SameShown (Panel.ofSites .webCreator sites)
      (Panel.ofSites .webCreator sites')) : siteText sites = siteText sites' :=
  transcriptText_eq <| h.entries.imp fun _ _ he => entryLines_eq he.role_eq he.error_eq he.content.1

theorem siteText_withoutLogs (sites : List (Option SiteEvent)) :
    siteText (SiteEvent.withoutLogs sites) =
      transcriptText ((Panel.ofSites .webCreator sites).entries.map Entry.joined) := by
  refine (transcriptText_eq (List.forall₂_map_left_iff.mpr ?_)).symm
  refine (Panel.alongside_withoutLogs .webCreator sites).entries.imp fun e e' he => ?_
  refine entryLines_eq he.role_eq he.error_eq ?_
  exact (congrArg (List.map Item.unnamed) (visible_joined e)).trans he.content.visible.symm

/-- Of the log lines of a site's stream nothing shows but that what came before a log line and what
came after it stay apart: what they say and whether they are repeated shows nowhere. Without them
items are put together that stand side by side, and the transcript is the same text if and only if
there are no such items. -/
theorem log_lines_only_part (sites before after : List (Option SiteEvent)) (line line' : String) :
    siteText (before ++ some (.log line) :: after) =
        siteText (before ++ some (.log line') :: after) ∧
      siteText (before ++ some (.log line) :: some (.log line') :: after) =
        siteText (before ++ some (.log line) :: after) ∧
      siteText (SiteEvent.withoutLogs sites) =
        transcriptText ((Panel.ofSites .webCreator sites).entries.map Entry.joined) ∧
      (siteText sites = siteText (SiteEvent.withoutLogs sites) ↔
        ∀ e ∈ (Panel.ofSites .webCreator sites).entries, KeptApart e.visible) := by
  refine ⟨siteText_eq (Panel.alongside_log _ before after line line'),
    siteText_eq (Panel.alongside_log_log _ before after line line'),
    siteText_withoutLogs sites, ?_⟩
  rw [siteText_withoutLogs, eq_comm]
  exact transcriptText_joined_eq_iff _

/-- A log line between two pieces of text puts them on two lines. -/
theorem log_line_breaks_text :
    let sites : List (Option SiteEvent) :=
      [some (.start "t" none), some (.delta "a"), some (.log "l"), some (.delta "b")]
    siteText sites = "[studio]\n  a\n  b\n" ∧
      siteText (SiteEvent.withoutLogs sites) = "[studio]\n  ab\n" := by
  decide

end Command

end PromptStudio
