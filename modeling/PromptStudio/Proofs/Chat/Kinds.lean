import PromptStudio.Proofs.Chat.Draft

/-!
# Items of one kind

What a draft shows of one kind of item is `items.filterMap g`, where `g` reads that kind. Log lines
and deployments add an item each and are never changed (`SiteEvent.item?`); text and progress are
put together with what stands last, and tool uses are changed where they stand. So what is shown of
a kind other than these three grows by what each event adds (`filterMap_applySite_of_blind`).
-/

namespace PromptStudio

/-! ## What items and events hold -/

namespace Item

/-- The percentage of a progress item. -/
def progress? : Item → Option Nat
  | .progress _ percent => some percent
  | _ => none

/-- The line of a log item. -/
def line? : Item → Option String
  | .log _ line => some line
  | _ => none

/-- The link of a preview item. -/
def link? : Item → Option PreviewLink
  | .preview _ link => some link
  | _ => none

end Item

namespace SiteEvent

/-- The text that an event adds to the reply. -/
def delta? : SiteEvent → Option String
  | .delta content => some content
  | _ => none

/-- The line that an event adds to the build log. -/
def line? : SiteEvent → Option String
  | .log content => some content
  | _ => none

/-- The deployment that an event tells of. -/
def deployment? : SiteEvent → Option PreviewLink
  | .deployed url message => some { url, message }
  | _ => none

/-- The item that an event adds and that no later event changes. -/
def item? (id : String) : SiteEvent → Option Item
  | .log content => some (.log id content)
  | .deployed url message => some (.preview id { url, message })
  | _ => none

end SiteEvent

theorem filterMap_concat {α β : Type} (f : α → Option β) (xs : List α) (x : α) :
    (xs ++ [x]).filterMap f = xs.filterMap f ++ (f x).toList := by
  rw [List.filterMap_append]
  cases h : f x <;> simp [h]

/-! ## Drafts -/

namespace Draft

variable {β : Type} {d : Draft} {merge : Item → Option Item} {make : String → Item}
  {g : Item → Option β}

theorem filterMap_add (d : Draft) (make : String → Item) (g : Item → Option β) :
    (d.add make).items.filterMap g =
      d.items.filterMap g ++ (g (make (idOf d.mode (d.issued + 1)))).toList :=
  filterMap_concat g d.items _

/-- What is blind to the items that are made, and to how the last one is changed, sees nothing. -/
theorem filterMap_amend (hmerge : ∀ i j, merge i = some j → g j = g i)
    (hmake : ∀ id, g (make id) = none) :
    (d.amend merge make).items.filterMap g = d.items.filterMap g := by
  rcases amend_cases d merge make with ⟨is, i, j, his, hij, hamend⟩ | ⟨_, hamend⟩
  · rw [hamend]
    show (is ++ [j]).filterMap g = d.items.filterMap g
    rw [his, List.filterMap_append, List.filterMap_append, List.filterMap, List.filterMap,
      hmerge i j hij]
    rfl
  · rw [hamend, filterMap_add, hmake]
    exact List.append_nil _

theorem filterMap_appendText (hg : ∀ id words, g (.text id words) = none) (d : Draft)
    (words : String) : (d.appendText words).items.filterMap g = d.items.filterMap g := by
  rw [appendText_eq_amend]
  refine filterMap_amend (fun i j hij => ?_) fun id => hg id words
  cases i with
  | text _ _ => obtain rfl := Option.some.inj hij; rw [hg, hg]
  | _ => cases hij

theorem filterMap_setProgress (hg : ∀ id percent, g (.progress id percent) = none) (d : Draft)
    (percent : Option Nat) :
    (d.setProgress percent).items.filterMap g = d.items.filterMap g := by
  rw [setProgress_eq_amend]
  refine filterMap_amend (fun i j hij => ?_) fun id => hg id _
  cases i with
  | progress _ _ => obtain rfl := Option.some.inj hij; rw [hg, hg]
  | _ => cases hij

theorem filterMap_onUse (hg : ∀ id use, g (.toolUse id use) = none) (d : Draft) (callId : String)
    (change : ToolUse → ToolUse) :
    (d.onUse callId change).items.filterMap g = d.items.filterMap g := by
  refine filterMap_mapFirst (fun i => ?_) d.items
  cases i with
  | toolUse id use => exact (hg id _).trans (hg id _).symm
  | _ => rfl

theorem filterMap_recordCall (hg : ∀ id use, g (.toolUse id use) = none) (d : Draft)
    (c : ToolCall) : (d.recordCall c).items.filterMap g = d.items.filterMap g := by
  unfold recordCall
  split
  · exact filterMap_onUse hg d _ _
  · rw [filterMap_add, hg]
    exact List.append_nil _

/-- A log line and a deployment add themselves, and no other event but a piece of text adds what is
neither progress nor a tool use. -/
theorem filterMap_applySite (huse : ∀ id use, g (.toolUse id use) = none)
    (hprogress : ∀ id percent, g (.progress id percent) = none) (d : Draft) {e : SiteEvent}
    (he : e.delta? = none) :
    (d.applySite e).items.filterMap g =
      d.items.filterMap g ++ ((e.item? (idOf d.mode (d.issued + 1))).bind g).toList := by
  cases e with
  | delta _ => cases he
  | toolCall calls =>
    refine Eq.trans ?_ (List.append_nil _).symm
    exact List.foldlRecOn (motive := fun d' : Draft => d'.items.filterMap g = d.items.filterMap g)
      calls recordCall rfl fun d' hd' c _ => (filterMap_recordCall huse d' c).trans hd'
  | toolOutput callId status => exact (filterMap_onUse huse d _ _).trans (List.append_nil _).symm
  | progress stage _ => exact (filterMap_setProgress hprogress d _).trans (List.append_nil _).symm
  | log _ | deployed _ _ => exact filterMap_add d _ g
  | start _ _ | ping _ | done _ | error _ _ => exact (List.append_nil _).symm

/-- What is blind to text too sees exactly the items that log lines and deployments add. -/
theorem filterMap_applySite_of_blind (htext : ∀ id words, g (.text id words) = none)
    (huse : ∀ id use, g (.toolUse id use) = none)
    (hprogress : ∀ id percent, g (.progress id percent) = none) (d : Draft) (e : SiteEvent) :
    (d.applySite e).items.filterMap g =
      d.items.filterMap g ++ ((e.item? (idOf d.mode (d.issued + 1))).bind g).toList := by
  cases e with
  | delta content => exact (filterMap_appendText htext d content).trans (List.append_nil _).symm
  | _ => exact filterMap_applySite huse hprogress d rfl

end Draft

end PromptStudio
