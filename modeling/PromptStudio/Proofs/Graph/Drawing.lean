import PromptStudio.Graph.Drawing
import PromptStudio.Proofs.Graph.Slots

/-!
# What a drawing shows

`Drawing.Shows` says what the drawing of a specification has to show: which nodes there are and in
which order, what each of them stands for, where they stand, which of them is the entry, and which
edges there are. Three parts of the program decide by themselves which ids there are, and
`map_fst_placesOf` and `map_ends_edges` say that they agree. So a specification's drawing shows it
(`shows_ofSpec`).
-/

namespace PromptStudio.Graph

/-- The ends of a drawn edge. -/
def DrawnEdge.ends (e : DrawnEdge) : Edge := { source := e.source, target := e.target }

/-- The drawing shows the specification, measured in whole numbers. -/
structure Drawing.Shows (d : Drawing Int) (s : Spec) : Prop where
  /-- The agents come first, in the order of their first mention, and then the other nodes. -/
  ids : d.nodes.map (·.id) = (s.agents.map (·.name)).eraseDups ++
    (s.nodes.filter (· ∉ s.agents.map (·.name))).eraseDups
  /-- A node with the name of an agent shows the first such agent, and any other its name. -/
  data : ∀ n ∈ d.nodes,
    (n.kind = .agent ∧ ∃ before a after, s.agents = before ++ a :: after ∧ a.name = n.id ∧
      (∀ b ∈ before, b.name ≠ n.id) ∧ n.data = agentData a) ∨
    (n.kind = .processor ∧ (∀ a ∈ s.agents, a.name ≠ n.id) ∧
      n.data = .ofMembers [("name", .str n.id)])
  /-- No two nodes stand in the same place. -/
  places : (d.nodes.map (·.position)).Nodup
  /-- One node is the entry if the specification names a node as its entry, and otherwise none. -/
  entry : (d.nodes.filter (·.isEntry)).map (·.id) =
    if s.entryPoint ≠ "" ∧ s.entryPoint ∈ d.nodes.map (·.id) then [s.entryPoint] else []
  /-- The edges are those between nodes, in order and as often as they are given. -/
  edges : d.edges.map DrawnEdge.ends = s.edges.filter fun e =>
    e.source ∈ d.nodes.map (·.id) ∧ e.target ∈ d.nodes.map (·.id)
  /-- Both ends of an edge are found, and without cycles it leads to the right. -/
  found : ∀ e ∈ d.edges, ∃ m n, d.node? e.source = some m ∧ d.node? e.target = some n ∧
    m.id = e.source ∧ n.id = e.target ∧
    (Acyclic (d.edges.map DrawnEdge.ends) → m.position.x < n.position.x)

variable {s : Spec} {id : String}

/-! ## The ids of a drawing -/

theorem nodup_nodeIds (s : Spec) : (nodeIds s).Nodup := nodup_distinct _

theorem nodeIds_eq_eraseDups (s : Spec) :
    nodeIds s = (s.agents.map (·.name)).eraseDups ++
      (s.nodes.filter (· ∉ s.agents.map (·.name))).eraseDups := by
  unfold nodeIds
  rw [distinct_append, distinct_eq_eraseDups, distinct_eq_eraseDups]

/-- The places of a specification's nodes. -/
def placesOf (s : Spec) : List (String × Position Int) :=
  positions (.standard : Layout Int) (nodeIds s) s.edges

theorem map_fst_placesOf (s : Spec) : (placesOf s).map Prod.fst = nodeIds s := by
  unfold placesOf
  rw [positions_eq_map, List.map_map]
  refine (map_fst_layers (nodeIds s) s.edges).trans ?_
  exact distinct_of_nodup (nodup_nodeIds s)

/-! ## Nodes -/

/-- The node drawn for an id. -/
def drawnNode (s : Spec) (id : String) : DrawnNode Int where
  id := id
  kind := (nodeData s id).1
  position := ((placesOf s).lookup id).getD ⟨0, 0⟩
  data := (nodeData s id).2
  isEntry := !s.entryPoint.isEmpty && s.entryPoint == id

theorem nodes_ofSpec (s : Spec) :
    (Drawing.ofSpec s : Drawing Int).nodes = (nodeIds s).map (drawnNode s) := rfl

theorem map_id_nodes (s : Spec) :
    (Drawing.ofSpec s : Drawing Int).nodes.map (·.id) = nodeIds s := by
  rw [nodes_ofSpec, List.map_map]
  exact List.map_id _

theorem node?_ofSpec (hid : id ∈ nodeIds s) :
    (Drawing.ofSpec s : Drawing Int).node? id = some (drawnNode s id) := by
  have hfind : (nodeIds s).find? (· == id) = some id := by
    obtain ⟨x, hx⟩ : ∃ x, (nodeIds s).find? (· == id) = some x :=
      Option.isSome_iff_exists.mp (List.find?_isSome.mpr ⟨id, hid, beq_self_eq_true id⟩)
    have hxid : x = id := by simpa using List.find?_some hx
    rw [hx, hxid]
  unfold Drawing.node?
  rw [nodes_ofSpec, List.find?_map]
  exact congrArg (Option.map (drawnNode s)) hfind

/-- No place is made up: the nodes have the places of their ids. -/
theorem map_position_nodes (s : Spec) :
    (Drawing.ofSpec s : Drawing Int).nodes.map (·.position) = (placesOf s).map Prod.snd := by
  have hnodup : ((placesOf s).map Prod.fst).Nodup := by
    rw [map_fst_placesOf]
    exact nodup_nodeIds s
  rw [nodes_ofSpec, List.map_map, ← map_fst_placesOf, List.map_map]
  refine List.map_congr_left fun m hm => ?_
  show ((placesOf s).lookup m.1).getD _ = m.2
  rw [lookup_of_mem hnodup hm]
  rfl

/-- A node stands at the left end of its layer. -/
theorem x_drawnNode (hid : id ∈ nodeIds s) :
    (drawnNode s id).position.x = (Work.finish (nodeIds s) s.edges).layerOf id * 380 := by
  have hx := lookup_positions_x (.standard : Layout Int) (nodeIds s) s.edges id
  rw [lookup_layers, if_pos (mem_distinct.mpr hid)] at hx
  obtain ⟨p, hp, hpx⟩ := Option.map_eq_some_iff.mp hx
  have hlookup : (placesOf s).lookup id = some p := hp
  show (((placesOf s).lookup id).getD _).x = _
  rw [hlookup]
  exact hpx

theorem nodeData_cases (s : Spec) (id : String) :
    (∃ before a after, s.agents = before ++ a :: after ∧ a.name = id ∧
      (∀ b ∈ before, b.name ≠ id) ∧ nodeData s id = (.agent, agentData a)) ∨
    (∀ a ∈ s.agents, a.name ≠ id) ∧
      nodeData s id = (.processor, .ofMembers [("name", .str id)]) := by
  unfold nodeData
  cases hfind : s.agents.find? (·.name == id) with
  | some a =>
    obtain ⟨ha, before, after, hsplit, hbefore⟩ := List.find?_eq_some_iff_append.mp hfind
    refine .inl ⟨before, a, after, hsplit, beq_iff_eq.mp ha, fun b hb => ?_, rfl⟩
    simpa using hbefore b hb
  | none =>
    refine .inr ⟨fun a ha => ?_, rfl⟩
    simpa using List.find?_eq_none.mp hfind a ha

theorem filter_entry (s : Spec) :
    ((Drawing.ofSpec s : Drawing Int).nodes.filter (·.isEntry)).map (·.id) =
      if s.entryPoint ≠ "" ∧ s.entryPoint ∈ nodeIds s then [s.entryPoint] else [] := by
  have hids : ((Drawing.ofSpec s : Drawing Int).nodes.filter (·.isEntry)).map (·.id) =
      (nodeIds s).filter fun id => !s.entryPoint.isEmpty && s.entryPoint == id := by
    rw [nodes_ofSpec, List.filter_map, List.map_map]
    exact List.map_id _
  rw [hids]
  by_cases hempty : s.entryPoint = ""
  · simp [hempty]
  have hfilter : ((nodeIds s).filter fun id => !s.entryPoint.isEmpty && s.entryPoint == id) =
      (nodeIds s).filter (· = s.entryPoint) :=
    List.filter_congr fun id _ => by simp [hempty, beq_eq_decide, eq_comm (a := s.entryPoint)]
  rw [hfilter, List.filter_eq]
  by_cases hid : s.entryPoint ∈ nodeIds s
  · rw [List.count_eq_one_of_mem (nodup_nodeIds s) hid, if_pos ⟨hempty, hid⟩]
    rfl
  · rw [List.count_eq_zero_of_not_mem hid, if_neg fun h => hid h.2]
    rfl

/-! ## Edges -/

theorem map_ends_edges (s : Spec) :
    (Drawing.ofSpec s : Drawing Int).edges.map DrawnEdge.ends = kept (nodeIds s) s.edges := by
  show ((kept (nodeIds s) s.edges).map drawnEdge).map DrawnEdge.ends = _
  rw [List.map_map]
  exact List.map_id _

/-- The drawing of a specification shows it. -/
theorem shows_ofSpec (s : Spec) : (Drawing.ofSpec s).Shows s where
  ids := by rw [map_id_nodes, nodeIds_eq_eraseDups]
  data n hn := by
    rw [nodes_ofSpec] at hn
    obtain ⟨id, _, rfl⟩ := List.mem_map.mp hn
    rcases nodeData_cases s id with ⟨before, a, after, hsplit, ha, hbefore, hdata⟩ | ⟨hnone, hdata⟩
    · exact .inl ⟨congrArg Prod.fst hdata, before, a, after, hsplit, ha, hbefore,
        congrArg Prod.snd hdata⟩
    · exact .inr ⟨congrArg Prod.fst hdata, hnone, congrArg Prod.snd hdata⟩
  places := by
    rw [map_position_nodes]
    exact nodup_map_snd_positions (nodeIds s) s.edges
  entry := by rw [map_id_nodes, filter_entry]
  edges := by
    rw [map_ends_edges, map_id_nodes]
    unfold kept
    simp
  found e he := by
    have hends : e.ends ∈ kept (nodeIds s) s.edges := by
      rw [← map_ends_edges]
      exact List.mem_map_of_mem he
    obtain ⟨_, hsource, htarget⟩ := mem_kept.mp hends
    refine ⟨_, _, node?_ofSpec hsource, node?_ofSpec htarget, rfl, rfl, fun hacyclic => ?_⟩
    rw [map_ends_edges] at hacyclic
    have hlt := layerOf_finish_lt hacyclic hends
    have hx : (drawnNode s e.ends.source).position.x < (drawnNode s e.ends.target).position.x := by
      rw [x_drawnNode hsource, x_drawnNode htarget]
      omega
    exact hx

/-- Two agents of one name, a node listed like an agent, an edge given twice and one to nowhere. -/
def reviewed : Spec where
  agents := [⟨"draft", "small", "", "", [], none⟩, ⟨"review", "", "", "", [], none⟩,
    ⟨"draft", "large", "", "", [], none⟩]
  nodes := ["merge", "draft", "merge"]
  edges := [⟨"draft", "merge"⟩, ⟨"draft", "review"⟩, ⟨"review", "merge"⟩, ⟨"draft", "merge"⟩,
    ⟨"merge", "print"⟩]
  entryPoint := "draft"
  inputSchema := .null
  outputSchema := .null

theorem shows_ofSpec_reviewed :
    let d : Drawing Int := .ofSpec reviewed
    d.nodes.map (·.id) = ["draft", "review", "merge"] ∧
      d.nodes.map (·.position) = [⟨0, 120⟩, ⟨380, 120⟩, ⟨760, 120⟩] ∧
      (d.nodes.filter (·.isEntry)).map (·.id) = ["draft"] ∧ d.edges.length = 4 ∧
      ∀ e ∈ d.edges, ∃ m n, d.node? e.source = some m ∧ d.node? e.target = some n ∧
        m.position.x < n.position.x := by
  intro d
  have hshows : d.Shows reviewed := shows_ofSpec reviewed
  have hacyclic : Acyclic (d.edges.map DrawnEdge.ends) := fun v =>
    grounded_of_rank (P := fun _ => True) (r := (["draft", "review", "merge"].idxOf ·)) (by decide)
      trivial v 0 (.here v)
  refine ⟨hshows.ids.trans (by decide), by decide, hshows.entry.trans ?_, by decide, fun e he => ?_⟩
  · rw [hshows.ids]
    decide
  · obtain ⟨m, n, hm, hn, _, _, hlt⟩ := hshows.found e he
    exact ⟨m, n, hm, hn, hlt hacyclic⟩

end PromptStudio.Graph
