import PromptStudio.Backend.Change
import PromptStudio.Backend.Query
import PromptStudio.Proofs.Backend.Below

/-!
# Ids in paths

Ids are put into paths as they are, and nobody escapes them before. So the server does not see every
id: what stands behind `#` or `?` is not in the path, tabs and line breaks are dropped, a backslash
counts as a slash, dot segments are resolved, and blanks at the end of the address are lost. These
are all the losses: every other id stands in the path as it was given, only with the characters
escaped that cannot stand there (`kept_ids_apart`). Since percent signs are not escaped, an id that
holds an escape can still be written like another one.
-/

namespace PromptStudio

/-! ## Calls with an id in the path -/

/-- The endpoints that have an id in their path. -/
inductive Endpoint
  | workflow
  | execution
  | siteHistory
  | delete
  | rename
  | updateAgent
  | workflowStream
  | siteStream
deriving DecidableEq

namespace Endpoint

def method : Endpoint → Method
  | .workflow | .execution | .siteHistory | .workflowStream | .siteStream => .get
  | .delete => .delete
  | .rename => .put
  | .updateAgent => .patch

/-- The path before the id and its slash. -/
def stem : Endpoint → String
  | .workflow => "graphs/get_by_id"
  | .execution => "executions/get_by_id"
  | .siteHistory => "web-builder/history"
  | .delete => "graphs/delete_by_id"
  | .rename => "graphs/update_by_id"
  | .updateAgent => "graphs"
  | .workflowStream => "graphs/stream"
  | .siteStream => "web-builder/stream"

/-- The path behind the id. -/
def rest : Endpoint → String
  | .updateAgent => "/spec"
  | _ => ""

/-- The path with an id, below the backend's base address. -/
def path (e : Endpoint) (id : String) : String := e.stem ++ "/" ++ id ++ e.rest

/-- The id reaches the server: no character of it ends the path or is dropped or changed, none of
its segments is a dot segment, and it does not end in a blank where the path ends with it. -/
def Keeps (e : Endpoint) (id : String) : Prop :=
  (∀ c ∈ id.toList, c ∉ Url.lost) ∧
    (∀ s ∈ Url.segments id.toList, Url.isDots s = false) ∧
    (e.rest = "" → Url.EndsPlain id.toList)

/-- Evaluated over the characters of the id, not over all characters. -/
instance (e : Endpoint) (id : String) : Decidable (e.Keeps id) :=
  decidable_of_iff ((id.toList.all (!Url.lost.contains ·) = true) ∧
    (∀ s ∈ Url.segments id.toList, Url.isDots s = false) ∧
    (e.rest = "" → Url.EndsPlain id.toList)) (by simp [Keeps])

/-- No slash is lost at the start of a path. -/
theorem trimStartSlashes_path (e : Endpoint) (id : String) :
    Text.trimStartSlashes ("/" ++ e.path id) = e.path id := by
  obtain ⟨c, cs, hstem, hc⟩ : ∃ c cs, e.stem.toList = c :: cs ∧ (c == '/') = false := by
    cases e <;> exact ⟨_, _, rfl, by decide⟩
  rw [← String.toList_inj]
  simp [Text.trimStartSlashes, path, hstem, hc]

/-- Only the id decides whether a path is kept. -/
theorem intact_path_iff (e : Endpoint) (id : String) :
    Url.Intact (e.path id).toList ↔ e.Keeps id := by
  have hstem : (∀ c ∈ e.stem.toList, c ∉ Url.lost) ∧
      ∀ s ∈ Url.segments e.stem.toList, Url.isDots s = false := by
    cases e <;> exact ⟨by simp [stem, Url.lost], by decide⟩
  have hslash : Url.isSlash '/' = true ∧ Url.isEdge '/' = false ∧ '/' ∉ Url.lost := by decide
  have hpath : (e.path id).toList = e.stem.toList ++ '/' :: (id.toList ++ e.rest.toList) := by
    simp [path]
  rw [Url.intact_iff, Keeps, hpath, Url.segments_append_cons _ hslash.1, List.forall_mem_append,
    List.forall_mem_append, List.forall_mem_cons, and_iff_right hstem.1, and_iff_right hstem.2,
    and_iff_right hslash.2.2, Url.EndsPlain, Url.EndsPlain, List.getLast?_append,
    List.getLast?_cons]
  have hrest : e.rest = "" ∨ e.rest = "/spec" := by cases e <;> decide
  rcases hrest with hrest | hrest
  · rw [hrest, String.toList_empty, List.append_nil, forall_prop_of_true rfl]
    cases id.toList.getLast? <;> simp [hslash.2.1]
  · have hspec : (∀ c ∈ "/spec".toList, c ∉ Url.lost) ∧
        ∀ s ∈ Url.segments "spec".toList, Url.isDots s = false :=
      ⟨by simp [Url.lost], by decide⟩
    have hsegments : Url.segments (id.toList ++ "/spec".toList) =
      Url.segments id.toList ++ Url.segments "spec".toList :=
        Url.segments_append_cons _ hslash.1 "spec".toList
    rw [hrest, hsegments, List.forall_mem_append, List.forall_mem_append, and_iff_left hspec.1,
      and_iff_left hspec.2]
    simp [Url.isEdge]

/-- Of two endpoints with one method neither path starts like the other. -/
theorem eq_of_startsLike {e e' : Endpoint} (hmethod : e.method = e'.method)
    (h : (e.stem ++ "/").toList <+: (e'.stem ++ "/").toList) : e = e' := by
  cases e <;> cases e' <;> first | rfl | exact absurd h (by decide) | cases hmethod

/-- Requests of one method have the same path only at one endpoint and for one id. -/
theorem path_inj {e e' : Endpoint} (hmethod : e.method = e'.method) {a b : String} :
    e.path a = e'.path b ↔ e = e' ∧ a = b := by
  constructor
  · intro h
    have hlists : (e.stem ++ "/").toList ++ (a ++ e.rest).toList =
        (e'.stem ++ "/").toList ++ (b ++ e'.rest).toList := by
      simpa [path, ← String.toList_inj] using h
    have hstart := List.prefix_append (e.stem ++ "/").toList (a ++ e.rest).toList
    have hstart' := List.prefix_append (e'.stem ++ "/").toList (b ++ e'.rest).toList
    obtain rfl : e = e' := by
      rcases List.prefix_or_prefix_of_prefix hstart (hlists ▸ hstart') with h | h
      · exact eq_of_startsLike hmethod h
      · exact (eq_of_startsLike hmethod.symm h).symm
    rw [List.append_cancel_left_eq, String.toList_inj, String.append_left_inj] at hlists
    exact ⟨rfl, hlists⟩
  · rintro ⟨rfl, rfl⟩
    rfl

/-- Only the id needs escapes. -/
theorem escaped_path (e : Endpoint) (id : String) :
    Url.escaped (e.path id) = e.path (Url.escaped id) := by
  have hstem : Url.escape Url.pathMarks e.stem.toList = e.stem.toList := by cases e <;> rfl
  have hrest : Url.escape Url.pathMarks e.rest.toList = e.rest.toList := by cases e <;> rfl
  have hslash : Url.escape Url.pathMarks "/".toList = "/".toList := rfl
  rw [← String.toList_inj]
  simp only [path, Url.escaped, String.toList_append, String.toList_ofList, Url.escape_append,
    hstem, hrest, hslash]

end Endpoint

/-- The calls that put an id into the path, with whatever else they send. -/
inductive IdCall
  | workflow
  | execution
  | siteHistory
  | delete
  | rename (name : String)
  | updateAgent (agent : String) (update : AgentUpdate)
  | workflowStream
  | siteStream

namespace IdCall

/-- The request that a call makes for an id. -/
def request (c : IdCall) (id : String) : Request :=
  match c with
  | .workflow => (Query.workflow id).request
  | .execution => (Query.execution id).request
  | .siteHistory => (Query.siteHistory id).request
  | .delete => (Change.delete id).request
  | .rename name => (Change.rename id name).request
  | .updateAgent agent update => (Change.updateAgent id agent update).request
  | .workflowStream => .workflowStream id
  | .siteStream => .siteStream id

def endpoint : IdCall → Endpoint
  | .workflow => .workflow
  | .execution => .execution
  | .siteHistory => .siteHistory
  | .delete => .delete
  | .rename _ => .rename
  | .updateAgent _ _ => .updateAgent
  | .workflowStream => .workflowStream
  | .siteStream => .siteStream

theorem request_method (c : IdCall) (id : String) : (c.request id).method = c.endpoint.method := by
  cases c <;> rfl

theorem request_path (c : IdCall) (id : String) :
    (c.request id).path = "/" ++ c.endpoint.path id := by
  cases c <;> simp only [endpoint, Endpoint.path, Endpoint.stem, Endpoint.rest, String.append_empty,
    ← String.append_assoc] <;> rfl

theorem request_address (c : IdCall) (s : Settings) (id : String) :
    (c.request id).address s = s.apiUrl ++ "/" ++ c.endpoint.path id := by
  rw [Request.address, Settings.endpoint, request_path, Endpoint.trimStartSlashes_path]

end IdCall

/-- Which ids reach the server. Below a base address that the transport can reach and that has
neither query nor fragment, all requests go to one server; only a blank at the end of the base
address can make all addresses below it unreadable. The path of a request is that of the base
address with the endpoint's own parts and the id, escaped, exactly if the endpoint keeps the id. Two
requests with ids that are kept have the same method and path just if they are for one endpoint and
their ids are written alike. An id that holds no escapes is read back from what is written of it, so
two such ids are written alike only if they are the same. -/
theorem kept_ids_apart (s : Settings) {root : Url} (habsolute : Url.parse? s.apiUrl = some root)
    (hweb : root.isWeb = true) (hquery : root.query = none) (hfragment : root.fragment = none) :
    (¬ Url.EndsPlain s.apiUrl.toList ∧ ∀ p, Url.parse? (s.endpoint p) = none) ∨
      ∃ base, Url.parse? (s.endpoint "") = some base ∧
        (∀ (c : IdCall) (id : String), ∃ u, Url.parse? ((c.request id).address s) = some u ∧
          u.isWeb = true ∧ u.scheme = base.scheme ∧ u.host = base.host ∧ u.port = base.port ∧
          (u.path = base.path ++ c.endpoint.path (Url.escaped id) ↔ c.endpoint.Keeps id)) ∧
        (∀ (c c' : IdCall) (a b : String) (u u' : Url),
          c.endpoint.Keeps a → c'.endpoint.Keeps b →
          Url.parse? ((c.request a).address s) = some u →
          Url.parse? ((c'.request b).address s) = some u' →
          ((c.request a).method = (c'.request b).method ∧ u.path = u'.path ↔
            c.endpoint = c'.endpoint ∧ Url.escaped a = Url.escaped b)) ∧
        (∀ id, Url.Escapeless id.toList →
          Url.unescape (Url.escaped id).toList = Text.octets id) ∧
        ∀ a b, Url.Escapeless a.toList → Url.Escapeless b.toList →
          (Url.escaped a = Url.escaped b ↔ a = b) := by
  rcases Url.path_below_iff habsolute hweb hquery hfragment with
    ⟨hend, hnone⟩ | ⟨base, hbase, hbelow⟩
  · exact .inl ⟨hend, fun p => hnone _⟩
  have hids : ∀ (c : IdCall) (id : String), ∃ u, Url.parse? ((c.request id).address s) = some u ∧
      u.isWeb = true ∧ u.scheme = base.scheme ∧ u.host = base.host ∧ u.port = base.port ∧
      (u.path = base.path ++ c.endpoint.path (Url.escaped id) ↔ c.endpoint.Keeps id) := by
    intro c id
    rw [IdCall.request_address, ← Endpoint.escaped_path, ← Endpoint.intact_path_iff]
    exact hbelow (c.endpoint.path id)
  refine .inr ⟨base, ?_, hids, ?_, ?_, ?_⟩
  · rw [Settings.endpoint]
    exact (congrArg Url.parse? (String.append_empty)).trans hbase
  · intro c c' a b u u' ha hb hu hu'
    have hpath : ∀ {c : IdCall} {id : String} {u : Url}, c.endpoint.Keeps id →
        Url.parse? ((c.request id).address s) = some u →
        u.path = base.path ++ c.endpoint.path (Url.escaped id) := by
      intro c id u hid hu
      obtain ⟨v, hv, _, _, _, _, hkeeps⟩ := hids c id
      obtain rfl := Option.some.inj (hu.symm.trans hv)
      exact hkeeps.mpr hid
    rw [hpath ha hu, hpath hb hu', String.append_right_inj, IdCall.request_method,
      IdCall.request_method]
    constructor
    · rintro ⟨hmethod, h⟩
      exact (Endpoint.path_inj hmethod).mp h
    · rintro ⟨hendpoint, h⟩
      rw [hendpoint, h]
      exact ⟨rfl, rfl⟩
  · intro id hid
    rw [Url.escaped, String.toList_ofList, Url.unescape_escape hid, Text.octets_eq]
  · intro a b ha hb
    exact ⟨fun h => Url.escape_inj ha hb (String.ofList_inj.mp h), fun h => h ▸ rfl⟩

/-- Two ids with a character between that is escaped in one of them. -/
theorem kept_ids_apart_blank :
    let s : Settings := {}
    ∃ base u u', Url.parse? (s.endpoint "") = some base ∧
      Url.parse? ((IdCall.delete.request "my blog").address s) = some u ∧
      Url.parse? ((IdCall.delete.request "my+blog").address s) = some u' ∧
      u.path = base.path ++ Endpoint.delete.path (Url.escaped "my blog") ∧ u.path ≠ u'.path := by
  intro s
  have hroot : Url.parse? s.apiUrl = some
      { scheme := "http", host := some "localhost", port := some 8000, path := "/api"
        query := none, fragment := none } := by decide
  obtain ⟨hend, _⟩ | ⟨base, hbase, hids, hapart, _, hwritten⟩ :=
    kept_ids_apart s hroot rfl rfl rfl
  · exact absurd (by decide) hend
  obtain ⟨u, hu, _, _, _, _, hpath⟩ := hids .delete "my blog"
  obtain ⟨u', hu', _⟩ := hids .delete "my+blog"
  refine ⟨base, u, u', hbase, hu, hu', hpath.mpr (by decide), fun h => ?_⟩
  have halike := (hapart .delete .delete _ _ u u' (by decide) (by decide) hu hu').mp ⟨rfl, h⟩
  have hsame := (hwritten _ _ (Url.escapeless_of_not_mem (by decide))
    (Url.escapeless_of_not_mem (by decide))).mp halike.2
  exact absurd hsame (by decide)

/-- Ids that are not kept, or that hold escapes, are sent in the path of another id, and even at
another endpoint. -/
theorem different_ids_one_path :
    let s : Settings := { apiUrl := "http://b" }
    let path (c : IdCall) (id : String) := (Url.parse? ((c.request id).address s)).map Url.path
    (∃ root, Url.parse? s.apiUrl = some root ∧ root.isWeb = true ∧ root.query = none ∧
        root.fragment = none) ∧
      (∀ id ∈ ["b#c", "b?c", "b ", "b\t", "a/../b", "a/%2E%2E/b"], id ≠ "b" ∧
        path .delete id = some "/graphs/delete_by_id/b") ∧
      path .delete "b" = some "/graphs/delete_by_id/b" ∧
      path .delete "a\\b" = path .delete "a/b" ∧ path .delete "a b" = path .delete "a%20b" ∧
      path .workflow "../stream/e" = path .workflowStream "e" := by
  intro s path
  have hroot : Url.parse? s.apiUrl = some
      { scheme := "http", host := some "b", port := none, path := "/", query := none
        fragment := none } := by decide
  exact ⟨⟨_, hroot, rfl, rfl, rfl⟩, by decide +kernel, by decide +kernel, by decide +kernel,
    by decide +kernel, by decide +kernel⟩

end PromptStudio
