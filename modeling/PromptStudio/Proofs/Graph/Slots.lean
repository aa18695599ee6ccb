import PromptStudio.Proofs.Graph.Layer

/-!
# The slots of a layer

The nodes of a layer stand one below the other, in the order of first mention: a node is put into
the slot whose number is that of the nodes of its layer mentioned before it (`slotOf`). `Slots`
counts them while the nodes are placed one by one (`place_concat`), and so `positions_eq_map` gives
the place of every node, for sizes of any kind. The slots of a layer are filled from the first on
(`map_slotOf_layers`), so no two nodes stand in the same place (`positions_fill_layers`).
-/

namespace PromptStudio.Graph

variable {α : Type} [Measure α] {f : String → Nat} {ids : List String} {edges : List Edge}
  {v : String} {m : String × Nat}

/-! ## Counting while nodes are placed -/

/-- The number of nodes counted on a layer. -/
def Slots.count (slots : Slots) (layer : Nat) : Nat := (slots.lookup layer).getD 0

theorem Slots.count_add (slots : Slots) (layer n : Nat) :
    (slots.add layer).count n = slots.count n + if layer = n then 1 else 0 := by
  unfold count
  induction slots with
  | nil =>
    rw [add, lookup_cons]
    grind
  | cons s slots ih =>
    rw [add]
    split
    next hs =>
      obtain rfl : s.1 = layer := beq_iff_eq.mp hs
      rw [lookup_cons, lookup_cons]
      grind
    next hs =>
      rw [lookup_cons, lookup_cons]
      grind

/-- The number of a node, or 0 if it has none. -/
def Numbering.of (ns : Numbering) (v : String) : Nat := (ns.lookup v).getD 0

/-- A node is placed below those of its layer that have been placed. -/
theorem place_concat (l : Layout α) (ns : Numbering) (slots : Slots) (ids : List String)
    (v : String) :
    place l ns slots (ids ++ [v]) = place l ns slots ids ++
      [(v, { x := l.x (ns.of v)
             y := l.y (slots.count (ns.of v) + ids.countP (ns.of · = ns.of v)) })] := by
  induction ids generalizing slots with
  | nil => rfl
  | cons id ids ih =>
    have hcount : (slots.add (ns.of id)).count (ns.of v) + ids.countP (ns.of · = ns.of v) =
        slots.count (ns.of v) + (id :: ids).countP (ns.of · = ns.of v) := by
      rw [Slots.count_add, List.countP_cons]
      by_cases h : ns.of id = ns.of v <;> simp [h]
      omega
    show _ :: place l ns (slots.add (ns.of id)) (ids ++ [v]) = _
    rw [ih, hcount]
    rfl

/-! ## Order of first mention -/

/-- The number of nodes with the number of `m` that are first mentioned before it. -/
def slotOf (ids : List String) (ns : Numbering) (m : String × Nat) : Nat :=
  ns.countP fun u => u.2 = m.2 ∧ ids.idxOf u.1 < ids.idxOf m.1

/-- The nodes listed, each with its number, in the order of first mention. -/
def numbered (f : String → Nat) (ids : List String) : Numbering :=
  (distinct ids).map fun v => (v, f v)

theorem mem_numbered : m ∈ numbered f ids ↔ m.1 ∈ ids ∧ m.2 = f m.1 := by
  unfold numbered
  rw [List.mem_map]
  constructor
  · rintro ⟨v, hv, rfl⟩
    exact ⟨mem_distinct.mp hv, rfl⟩
  · rintro ⟨hv, hm⟩
    exact ⟨m.1, mem_distinct.mpr hv, Prod.ext rfl hm.symm⟩

/-- A node is numbered when it is first mentioned. -/
theorem numbered_concat (f : String → Nat) (ids : List String) (v : String) :
    numbered f (ids ++ [v]) = numbered f ids ++ if v ∈ ids then [] else [(v, f v)] := by
  unfold numbered
  rw [distinct_append, List.map_append]
  by_cases hv : v ∈ ids
  · simp [hv, distinct, distinctFrom]
  · simp [hv, distinct, distinctFrom]

/-- What is mentioned later does not matter. -/
theorem slotOf_concat_of_mem (hm : m ∈ numbered f ids) (w : String) :
    slotOf (ids ++ [w]) (numbered f (ids ++ [w])) m = slotOf ids (numbered f ids) m := by
  have hmem : m.1 ∈ ids := (mem_numbered.mp hm).1
  have hold : ∀ u ∈ numbered f ids, (ids ++ [w]).idxOf u.1 = ids.idxOf u.1 := fun u hu =>
    List.idxOf_append_of_mem (mem_numbered.mp hu).1
  have hnew : ((if w ∈ ids then [] else [(w, f w)] : Numbering).countP fun u =>
      u.2 = m.2 ∧ (ids ++ [w]).idxOf u.1 < (ids ++ [w]).idxOf m.1) = 0 := by
    split
    · rfl
    next hw =>
      have hlt := List.idxOf_lt_length_of_mem hmem
      rw [List.countP_singleton, List.idxOf_append_of_mem hmem, List.idxOf_append_of_notMem hw,
        if_neg]
      simp only [decide_eq_true_eq, not_and]
      omega
  unfold slotOf
  rw [numbered_concat, List.countP_append, hnew, Nat.add_zero]
  refine List.countP_congr fun u hu => ?_
  rw [hold u hu, hold m hm]

/-- A node first mentioned now comes behind all others of its number. -/
theorem slotOf_concat_self (hv : v ∉ ids) :
    slotOf (ids ++ [v]) (numbered f (ids ++ [v])) (v, f v) =
      (numbered f ids).countP (·.2 = f v) := by
  have hlast : (ids ++ [v]).idxOf v = ids.length := by
    rw [List.idxOf_append_of_notMem hv]
    simp
  unfold slotOf
  rw [numbered_concat, if_neg hv, List.countP_append, List.countP_singleton, if_neg (by simp),
    Nat.add_zero]
  refine List.countP_congr fun u hu => ?_
  have hmem : u.1 ∈ ids := (mem_numbered.mp hu).1
  have hlt := List.idxOf_lt_length_of_mem hmem
  rw [hlast, List.idxOf_append_of_mem hmem]
  simp [hlt]

/-- The nodes listed, each with its number and its slot. -/
def seated (f : String → Nat) (ids : List String) : List ((String × Nat) × Nat) :=
  (numbered f ids).map fun m => (m, slotOf ids (numbered f ids) m)

/-- A node that is first mentioned gets the next slot of its number, and no other node moves. -/
theorem seated_concat (f : String → Nat) (ids : List String) (v : String) :
    seated f (ids ++ [v]) = seated f ids ++
      if v ∈ ids then [] else [((v, f v), (numbered f ids).countP (·.2 = f v))] := by
  have hold : (numbered f ids).map
      (fun m => (m, slotOf (ids ++ [v]) (numbered f (ids ++ [v])) m)) = seated f ids :=
    List.map_congr_left fun m hm => by rw [slotOf_concat_of_mem hm]
  by_cases hv : v ∈ ids
  · unfold seated
    rw [numbered_concat, if_pos hv, List.append_nil] at hold ⊢
    rw [hold, if_pos hv, List.append_nil]
    rfl
  · have hself := slotOf_concat_self (f := f) hv
    unfold seated
    rw [numbered_concat, if_neg hv] at hold hself ⊢
    rw [List.map_append, hold, if_neg hv, List.map_singleton, hself]
    rfl

/-- The slots of one number are taken in order, and none is left out. -/
theorem map_snd_seated (f : String → Nat) (ids : List String) (n : Nat) :
    ((seated f ids).filter (·.1.2 = n)).map Prod.snd =
      List.range ((numbered f ids).countP (·.2 = n)) := by
  induction ids using List.reverseRecOn with
  | nil => rfl
  | append_singleton ids v ih =>
    rw [seated_concat, numbered_concat, List.filter_append, List.map_append, ih,
      List.countP_append]
    by_cases hv : v ∈ ids
    · rw [if_pos hv, if_pos hv]
      exact List.append_nil _
    rw [if_neg hv, if_neg hv]
    by_cases hn : f v = n
    · simp [hn, List.range_succ]
    · simp [hn]

/-! ## Positions -/

theorem place_distinct (l : Layout α) (ns : Numbering) (ids : List String) :
    place l ns [] (distinct ids) =
      (seated ns.of ids).map fun s => (s.1.1, { x := l.x s.1.2, y := l.y s.2 }) := by
  induction ids using List.reverseRecOn with
  | nil => rfl
  | append_singleton ids v ih =>
    rw [distinct_append, seated_concat, List.map_append, ← ih]
    by_cases hv : v ∈ ids
    · rw [List.filter_cons_of_neg (by simpa using hv), if_pos hv, List.map_nil, List.append_nil]
      exact congrArg (place l ns []) (List.append_nil _)
    · have hcount : (numbered ns.of ids).countP (·.2 = ns.of v) =
          (distinct ids).countP (ns.of · = ns.of v) := List.countP_map
      rw [List.filter_cons_of_pos (by simpa using hv), if_neg hv, List.map_singleton, hcount]
      refine (place_concat l ns [] (distinct ids) v).trans ?_
      show _ ++ [(v, Position.mk _ (l.y (0 + _)))] = _
      rw [Nat.zero_add]

theorem numbered_layers (ids : List String) (edges : List Edge) :
    numbered (layers ids edges).of ids = layers ids edges := by
  conv_rhs => rw [layers_eq_map]
  refine List.map_congr_left fun v hv => ?_
  unfold Numbering.of
  rw [lookup_layers, if_pos hv]
  rfl

/-- Every node has a layer, and stands in its slot of that layer. -/
theorem positions_eq_map (l : Layout α) (ids : List String) (edges : List Edge) :
    positions l ids edges = (layers ids edges).map fun m =>
      (m.1, { x := l.x m.2, y := l.y (slotOf ids (layers ids edges) m) }) := by
  unfold positions
  rw [place_distinct, seated, numbered_layers, List.map_map]
  rfl

/-- The slots of a layer are taken in order, and none is left out. -/
theorem map_slotOf_layers (ids : List String) (edges : List Edge) (n : Nat) :
    ((layers ids edges).filter (·.2 = n)).map (slotOf ids (layers ids edges)) =
      List.range ((layers ids edges).countP (·.2 = n)) := by
  have h := map_snd_seated (layers ids edges).of ids n
  rwa [seated, numbered_layers, List.filter_map, List.map_map] at h

/-- Two nodes of a layer are not in the same slot. -/
theorem slotOf_inj {m' : String × Nat} (hm : m ∈ layers ids edges) (hm' : m' ∈ layers ids edges)
    (hlayer : m.2 = m'.2)
    (hslot : slotOf ids (layers ids edges) m = slotOf ids (layers ids edges) m') : m = m' := by
  have hnodup : (((layers ids edges).filter (·.2 = m'.2)).map
      (slotOf ids (layers ids edges))).Nodup := by
    rw [map_slotOf_layers]
    exact List.nodup_range
  refine List.inj_on_of_nodup_map hnodup ?_ ?_ hslot
  · exact List.mem_filter.mpr ⟨hm, decide_eq_true hlayer⟩
  · exact List.mem_filter.mpr ⟨hm', decide_eq_true rfl⟩

/-- In whole numbers, no two nodes stand in the same place. -/
theorem nodup_map_snd_positions (ids : List String) (edges : List Edge) :
    ((positions (.standard : Layout Int) ids edges).map Prod.snd).Nodup := by
  rw [positions_eq_map, List.map_map]
  refine (List.nodup_map_iff_inj_on (nodup_layers ids edges)).mpr fun m hm m' hm' hplace => ?_
  obtain ⟨hx, hy⟩ := (Position.mk.injEq ..).mp hplace
  have hlayer : (m.2 : Int) * 380 = m'.2 * 380 := hx
  have hslot : (120 : Int) + slotOf ids (layers ids edges) m * 144 =
      120 + slotOf ids (layers ids edges) m' * 144 := hy
  exact slotOf_inj hm hm' (by omega) (by omega)

/-- Nodes fill their layers from the top. Just the listed ids are placed, each once and in the order
of first mention, and each of them has a layer: it stands at this layer's left end, in the slot
whose number is that of the nodes of the layer mentioned before it. No two nodes stand in the same
place, and from the top to the bottom the nodes of a layer take its slots one after the other. -/
theorem positions_fill_layers (ids : List String) (edges : List Edge) :
    let placed := positions (.standard : Layout Int) ids edges
    placed.map Prod.fst = ids.eraseDups ∧
      (∀ v, v ∈ ids ↔ ∃ n, (layers ids edges).lookup v = some n) ∧
      placed = (layers ids edges).map (fun m =>
        (m.1, { x := 380 * m.2, y := 120 + 144 * slotOf ids (layers ids edges) m })) ∧
      (placed.map Prod.snd).Nodup ∧
      ∀ n : Nat, (placed.filter (·.2.x = 380 * (n : Int))).map (·.2.y) =
        (List.range ((layers ids edges).countP (·.2 = n))).map
          fun k : Nat => 120 + 144 * (k : Int) := by
  intro placed
  have hplaced : placed = (layers ids edges).map fun m =>
      (m.1, { x := 380 * m.2, y := 120 + 144 * slotOf ids (layers ids edges) m }) := by
    refine (positions_eq_map _ ids edges).trans (List.map_congr_left fun m _ => ?_)
    show (m.1, Position.mk ((m.2 : Int) * 380) (120 + (slotOf _ _ m : Int) * 144)) = _
    rw [Int.mul_comm, Int.mul_comm (slotOf _ _ m)]
  refine ⟨?_, fun v => ?_, hplaced, nodup_map_snd_positions ids edges, fun n => ?_⟩
  · rw [hplaced, List.map_map, ← distinct_eq_eraseDups, ← map_fst_layers ids edges]
    rfl
  · rw [lookup_layers]
    simp
  · have hlayer : (fun m : String × Nat => decide ((380 : Int) * m.2 = 380 * n)) =
        fun m => decide (m.2 = n) := by
      funext m
      exact decide_eq_decide.mpr ⟨fun h => by omega, fun h => by rw [h]⟩
    rw [hplaced, List.filter_map, List.map_map, ← map_slotOf_layers, List.map_map]
    show ((layers ids edges).filter fun m => decide ((380 : Int) * m.2 = 380 * n)).map _ = _
    rw [hlayer]
    rfl

end PromptStudio.Graph
