import Mathlib.Data.List.Induction
import PromptStudio.Proofs.Chat.Apart
import PromptStudio.Proofs.Chat.Kinds
import PromptStudio.Proofs.Studio.Events

/-!
# The preview pane and the transcript

The pane counts the deployments that a site's stream tells of and shows the last of them, whether or
not a turn is active; the transcript keeps a link to each deployment that came during a turn
(`links_apply`). So the pane is in step with the transcript exactly if every deployment came during
a turn (`inStep_iff`).
-/

namespace PromptStudio

/-- The links of an entry, in order. -/
def Entry.links (e : Entry) : List PreviewLink := e.content.filterMap Item.link?

/-- The links of a draft, in order. -/
def Draft.links (d : Draft) : List PreviewLink := d.items.filterMap Item.link?

/-- A deployment adds its link, and no other event touches a link. -/
theorem Draft.links_applySite (d : Draft) (e : SiteEvent) :
    (d.applySite e).links = d.links ++ e.deployment?.toList := by
  have h := filterMap_applySite_of_blind (g := Item.link?) (fun _ _ => rfl) (fun _ _ => rfl)
    (fun _ _ => rfl) d e
  cases e <;> exact h

namespace Panel

variable {p : Panel} {es : List Entry} {e : Entry}

/-- The links of a transcript, in order. -/
def links (p : Panel) : List PreviewLink := p.entries.flatMap Entry.links

theorem links_concat (h : p.entries = es ++ [e]) : p.links = es.flatMap Entry.links ++ e.links := by
  unfold links
  rw [h, List.flatMap_append, List.flatMap_singleton]

theorem flatMap_links_settle (h : p.Streamed) : p.settle.flatMap Entry.links = p.links := by
  cases h with
  | idle ha _ =>
    rw [settle_of_active ha]
    rfl
  | streaming es e he ha _ =>
    rw [settle_concat he ha, links_concat he, List.flatMap_append, List.flatMap_singleton]
    rfl

theorem links_openTurn (h : p.Streamed) : p.openTurn.links = p.links := by
  rw [h.openTurn_eq, links_concat rfl, flatMap_links_settle h]
  exact List.append_nil _

/-- The active turn gets further links, if there is one. -/
theorem links_onTurn (h : p.Streamed) {change : Entry → Nat → Entry × Nat}
    (new : List PreviewLink)
    (hchange : ∀ e n, (change e n).1.links = e.links ++ new) :
    (p.onTurn change).1.links = p.links ++ if p.active.isSome then new else [] := by
  cases h with
  | idle ha _ =>
    rw [onTurn_of_active ha, ha]
    exact (List.append_nil _).symm
  | streaming es e he ha _ =>
    rw [onTurn_concat he ha, links_concat rfl, hchange, links_concat he, ha, ← List.append_assoc]
    rfl

theorem links_closeTurn (h : p.Streamed) (failure : Option String) :
    (p.closeTurn failure).1.links = p.links := by
  unfold closeTurn
  refine (links_onTurn h [] fun _ _ => (List.append_nil _).symm).trans ?_
  rw [ite_self, List.append_nil]

/-- A deployment is linked to if it comes during a turn. -/
theorem links_apply (h : p.Streamed) (e : Option SiteEvent) :
    (p.apply (.site e)).links =
      p.links ++ if p.active.isSome then (e.bind SiteEvent.deployment?).toList else [] := by
  have hnone : p.links = p.links ++ if p.active.isSome then [] else [] := by
    rw [ite_self, List.append_nil]
  rcases e with _ | e
  · exact hnone
  cases e with
  | start _ _ => exact (links_openTurn h).trans hnone
  | ping _ => exact hnone
  | done _ | error _ _ => exact (links_closeTurn h _).trans hnone
  | delta _ | toolCall _ | toolOutput _ _ | progress _ _ | log _ | deployed _ _ =>
    exact links_onTurn h _ fun e n => Draft.links_applySite ⟨p.mode, e.content, n⟩ _

end Panel

/-! ## The pane -/

namespace Studio

variable {sites : List (Option SiteEvent)} {e : Option SiteEvent}

/-- The deployments that a stream tells of, in order. -/
def deployments (sites : List (Option SiteEvent)) : List PreviewLink :=
  sites.filterMap (·.bind SiteEvent.deployment?)

/-- The address of the last of these links, or no address. -/
def lastUrl (links : List PreviewLink) : String := (links.getLast?.map PreviewLink.url).getD ""

theorem ofSite_concat (sites : List (Option SiteEvent)) (e : Option SiteEvent) :
    ofSite (sites ++ [e]) = (ofSite sites).apply (.site e) := by
  unfold ofSite ofEvents
  rw [List.map_append, List.foldl_append]
  rfl

theorem site_ofSite (sites : List (Option SiteEvent)) :
    (ofSite sites).site = Panel.ofSites .webCreator sites := by
  induction sites using List.reverseRecOn with
  | nil => rfl
  | append_singleton sites e ih =>
    rw [ofSite_concat, Panel.ofSites_concat, ← ih]
    exact panel_apply _ (.site e) .webCreator

theorem deployments_concat (sites : List (Option SiteEvent)) (e : Option SiteEvent) :
    deployments (sites ++ [e]) = deployments sites ++ (e.bind SiteEvent.deployment?).toList := by
  unfold deployments
  rw [List.filterMap_append]
  rcases e with _ | (_ | _ | _ | _ | _ | _ | _ | _ | _ | _) <;> rfl

/-- The pane counts the deployments and shows the last one. -/
theorem preview_ofSite (sites : List (Option SiteEvent)) :
    (ofSite sites).preview.reloads = (deployments sites).length ∧
      (ofSite sites).preview.url = lastUrl (deployments sites) := by
  induction sites using List.reverseRecOn with
  | nil => exact ⟨rfl, rfl⟩
  | append_singleton sites e ih =>
    rw [ofSite_concat, deployments_concat]
    generalize ofSite sites = s at ih
    obtain ⟨hreloads, hurl⟩ := ih
    unfold apply applySite?
    rcases e with _ | (_ | _ | _ | _ | _ | _ | _ | _ | _ | _) <;>
      simp [SiteEvent.deployment?, SiteEvent.isTerminal, Preview.deployed, Preview.reload, hreloads,
        hurl, lastUrl]

theorem links_ofSite_concat (sites : List (Option SiteEvent)) (e : Option SiteEvent) :
    (ofSite (sites ++ [e])).site.links =
      (ofSite sites).site.links ++
        if (ofSite sites).site.active.isSome then (e.bind SiteEvent.deployment?).toList
        else [] := by
  rw [site_ofSite, site_ofSite, Panel.ofSites_concat]
  exact Panel.links_apply (Panel.streamed_ofSites _ sites) e

theorem links_sublist (sites : List (Option SiteEvent)) :
    (ofSite sites).site.links.Sublist (deployments sites) := by
  induction sites using List.reverseRecOn with
  | nil => exact .slnil
  | append_singleton sites e ih =>
    rw [links_ofSite_concat, deployments_concat]
    split
    · exact ih.append (.refl _)
    · exact ih.append (List.nil_sublist _)

/-! ## Deployments that no turn takes up -/

/-- Every deployment came while a turn was active. -/
def AllTakenUp (sites : List (Option SiteEvent)) : Prop :=
  ∀ before url message after, sites = before ++ some (.deployed url message) :: after →
    (ofSite before).site.active.isSome = true

theorem allTakenUp_concat :
    AllTakenUp (sites ++ [e]) ↔
      AllTakenUp sites ∧
        ((e.bind SiteEvent.deployment?).isSome → (ofSite sites).site.active.isSome = true) := by
  constructor
  · refine fun h => ⟨fun before url message after hsplit => ?_, fun he => ?_⟩
    · exact h before url message (after ++ [e]) (by simp [hsplit])
    · rcases e with _ | (_ | _ | _ | _ | _ | _ | ⟨url, message⟩ | _ | _ | _) <;> try cases he
      exact h sites url message [] rfl
  · rintro ⟨h, he⟩ before url message after hsplit
    -- the deployment is the new event, or it comes before that
    rcases List.eq_nil_or_concat after with rfl | ⟨after, y, rfl⟩
    · obtain ⟨rfl, hxy⟩ := List.append_inj' hsplit rfl
      obtain rfl := List.singleton_inj.mp hxy
      exact he rfl
    · have hcut : sites ++ [e] = (before ++ some (.deployed url message) :: after) ++ [y] := by
        simpa using hsplit
      exact h before url message after (List.append_inj' hcut rfl).1

theorem length_links_iff (sites : List (Option SiteEvent)) :
    (deployments sites).length = (ofSite sites).site.links.length ↔ AllTakenUp sites := by
  induction sites using List.reverseRecOn with
  | nil => simp [AllTakenUp, ofSite, ofEvents, Panel.links, deployments]
  | append_singleton sites e ih =>
    have hle := (links_sublist sites).length_le
    rw [allTakenUp_concat, ← ih, deployments_concat, links_ofSite_concat]
    rcases e.bind SiteEvent.deployment? with _ | link
    · simp
    · cases (ofSite sites).site.active.isSome with
      | true => simp
      | false => simp; omega

/-- When the pane is in step with the transcript. It counts the deployments and shows the last one;
the transcript links to some of them, in their order. So the pane counts the links and shows the
last one exactly if every deployment came while a turn was active. -/
theorem inStep_iff (sites : List (Option SiteEvent)) :
    let s := ofSite sites
    s.preview.reloads = (deployments sites).length ∧
      s.preview.url = lastUrl (deployments sites) ∧
      s.site.links.Sublist (deployments sites) ∧
      (s.preview.reloads = s.site.links.length ∧ s.preview.url = lastUrl s.site.links ↔
        AllTakenUp sites) := by
  intro s
  obtain ⟨hreloads, hurl⟩ := preview_ofSite sites
  have hsub := links_sublist sites
  refine ⟨hreloads, hurl, hsub, ?_⟩
  rw [hreloads, hurl]
  refine ⟨fun h => (length_links_iff sites).mp h.1, fun h => ?_⟩
  have hlen := (length_links_iff sites).mpr h
  rw [hsub.eq_of_length_le (Nat.le_of_eq hlen)]
  exact ⟨rfl, rfl⟩

/-- A deployment before the first turn is ignored by the transcript, and still shown by the pane. -/
theorem ignored_deployment_shows :
    let s := ofSite [some (.deployed "/p" "ok")]
    s.site.links = [] ∧ s.preview.url = "/p" ∧ s.preview.reloads = 1 ∧
      ¬ (s.preview.reloads = s.site.links.length ∧ s.preview.url = lastUrl s.site.links) := by
  intro s
  refine ⟨rfl, rfl, rfl, fun h => ?_⟩
  cases h.1

end Studio

end PromptStudio
