import Roze.Ai.Compose
import Roze.Library.Execution

/-!
# What compiling accepts

The rounds of the layering loop are the layers of the graph of the nodes: a name's degree is the
number of edges to it from nodes that are not done, so it is released to the ready names when the
last of its predecessors is done. From this follow which builders compile, and what a compiled
graph is: its layers have every node once, after all its predecessors, and every node and the
output have sources.
-/

namespace Roze.Ai

open Roze.Library List

/-- The sources of the edges to a name, in the order of the edges. -/
def sources (edges : Edges) (name : String) : List String :=
  (edges.filter (fun edge => edge.2 = name)).map Prod.fst

variable {edges : Edges} {name : String}

theorem mem_sources {source : String} : source ∈ sources edges name ↔ (source, name) ∈ edges := by
  simp [sources]

/-- Known ends, none out of the output and none into the input. -/
structure WellFormed (names : List String) (edges : Edges) : Prop where
  source : ∀ edge ∈ edges, edge.1 = START ∨ edge.1 ∈ names
  target : ∀ edge ∈ edges, edge.2 = END ∨ edge.2 ∈ names
  outOfEnd : ∀ edge ∈ edges, edge.1 ≠ END
  intoStart : ∀ edge ∈ edges, edge.2 ≠ START

/-! ## Edges -/

variable {names : List String}

theorem edgeError_eq_none_iff {edge : String × String} :
    edgeError names edge = none ↔
      edge.1 ≠ END ∧ edge.2 ≠ START ∧ (edge.1 = START ∨ edge.1 ∈ names) ∧
        (edge.2 = END ∨ edge.2 ∈ names) := by
  unfold edgeError
  grind

/-- When the edges are accepted. -/
theorem validateEdges_eq_ok_iff :
    validateEdges names edges = .ok () ↔
      WellFormed names edges ∧ (∃ edge ∈ edges, edge.1 = START) ∧ ∃ edge ∈ edges, edge.2 = END := by
  have checked : edges.findSome? (edgeError names) = none ↔ WellFormed names edges := by
    simp only [findSome?_eq_none_iff, edgeError_eq_none_iff]
    constructor
    · intro all
      exact ⟨fun edge member => (all edge member).2.2.1, fun edge member => (all edge member).2.2.2,
        fun edge member => (all edge member).1, fun edge member => (all edge member).2.1⟩
    · intro formed edge member
      exact ⟨formed.outOfEnd edge member, formed.intoStart edge member, formed.source edge member,
        formed.target edge member⟩
  have starts : edges.any (fun edge => edge.1 = START) ↔ ∃ edge ∈ edges, edge.1 = START := by simp
  have ends : edges.any (fun edge => edge.2 = END) ↔ ∃ edge ∈ edges, edge.2 = END := by simp
  rw [← checked, ← starts, ← ends, validateEdges]
  by_cases none : edges.isEmpty
  · simp_all
  · rw [if_neg none]
    cases edges.findSome? (edgeError names) with
    | some => simp
    | none =>
      cases edges.any (fun edge => edge.1 = START) with
      | false | true => simp

/-! ## Layers -/

/-- The edges to a name from nodes that are not done. -/
def pending (edges : Edges) (done : Finset String) (name : String) : Nat :=
  edges.countP (fun edge => edge.2 = name && edge.1 ≠ START && edge.1 ∉ done)

/-- The edges to a name from some names. -/
def arriving (edges : Edges) (layer : List String) (name : String) : Nat :=
  edges.countP (fun edge => edge.2 = name && edge.1 ∈ layer)

theorem indegree_eq_pending (edges : Edges) : indegree edges = pending edges ∅ := by
  funext name
  simp [indegree, pending]

variable {layer : List String}

/-- When a layer is done, its edges do not count any more. -/
theorem pending_union {done : Finset String} (fresh : ∀ node ∈ layer, node ∉ done ∧ node ≠ START) :
    pending edges (done ∪ layer.toFinset) name + arriving edges layer name =
      pending edges done name := by
  unfold pending arriving
  rw [countP_eq_countP_filter_add edges
    (fun edge => edge.2 = name && edge.1 ≠ START && edge.1 ∉ done) (fun edge => edge.1 ∈ layer),
    countP_filter, countP_filter, add_comm]
  congr 1
  · apply countP_congr
    intro edge _
    simp only [Bool.and_eq_true, decide_eq_true_eq]
    simp_all
  · apply countP_congr
    intro edge _
    simp only [Bool.and_eq_true, decide_eq_true_eq, Finset.mem_union, mem_toFinset, not_or,
      and_assoc, Bool.not_eq_true', decide_eq_false_iff_not]

variable {target : String}

theorem count_outgoing {source : String} (inner : target ≠ END) :
    (outgoing edges source).count target = edges.countP (fun edge => edge.2 = target && edge.1 = source) := by
  rw [outgoing, successors, filter_filter, count_eq_countP, countP_map,
    countP_filter]
  grind

/-- A layer releases a name once for each of its edges to it. -/
theorem count_flatMap_outgoing (distinct : layer.Nodup) (inner : target ≠ END) :
    (layer.flatMap (outgoing edges)).count target = arriving edges layer target := by
  induction layer with
  | nil => simp [arriving]
  | cons first rest ih =>
    obtain ⟨_, later⟩ := nodup_cons.mp distinct
    rw [flatMap_cons, count_append, count_outgoing inner, ih later]
    unfold arriving
    rw [countP_eq_countP_filter_add edges (fun edge => edge.2 = target && edge.1 ∈ first :: rest)
      (fun edge => edge.1 = first), countP_filter, countP_filter]
    congr 1
    · grind
    · apply countP_congr
      intro edge _
      grind

theorem mem_flatMap_outgoing :
    target ∈ layer.flatMap (outgoing edges) ↔
      target ≠ END ∧ ∃ source ∈ layer, (source, target) ∈ edges := by
  simp only [mem_flatMap, outgoing, mem_successors, Edge, mem_filter, decide_eq_true_eq]
  tauto

/-- What the releases of a round come to: a name loses one for each release, and is ready when
that is all it had. -/
theorem foldl_release (targets : List String) (degrees : String → Nat) (ready : NameSet)
    (name : String) :
    (targets.foldl release (degrees, ready)).1 name = degrees name - targets.count name ∧
      (name ∈ (targets.foldl release (degrees, ready)).2.values ↔
        name ∈ ready.values ∨ (name ∈ targets ∧ degrees name ≤ targets.count name)) := by
  induction targets generalizing degrees ready with
  | nil => simp
  | cons first rest ih =>
    have inserted : name ∈ (ready.insert first).values ↔ name = first ∨ name ∈ ready.values := by
      refine (KeyedMap.mem_insertSorted_iff ready.ascending).trans ?_
      tauto
    rw [foldl_cons, release]
    obtain ⟨degree, member⟩ := ih (Function.update degrees first (degrees first - 1))
      (if degrees first - 1 = 0 then ready.insert first else ready)
    rw [degree, member]
    by_cases own : name = first
    · subst own
      rw [Function.update_self, count_cons_self]
      refine ⟨by omega, ?_⟩
      by_cases last : degrees name - 1 = 0
      · rw [if_pos last, inserted]
        simp only [true_or, mem_cons, true_and, true_iff]
        exact .inr (by omega)
      · rw [if_neg last]
        simp only [mem_cons, true_or, true_and]
        refine or_congr_right ⟨fun ⟨_, few⟩ => by omega, fun few => ?_⟩
        exact ⟨count_pos_iff.mp (by omega), by omega⟩
    · have other : first ≠ name := Ne.symm own
      rw [Function.update_of_ne own, count_cons_of_ne other]
      refine ⟨rfl, ?_⟩
      have kept : name ∈ (if degrees first - 1 = 0 then ready.insert first else ready).values ↔
          name ∈ ready.values := by
        split
        · simp_all
        · rfl
      rw [kept, mem_cons]
      simp only [own, false_or]

section Layers

variable {names : List String} {edges : Edges}

/-- What holds before every round: the degrees count the edges from nodes that are not done, and
the ready names are the nodes whose predecessors are done. -/
structure Rounds (names : List String) (edges : Edges) (done : Finset String)
    (degrees : String → Nat) (ready : NameSet) : Prop where
  degrees : ∀ name ∈ names, degrees name = pending edges done name
  ready : ∀ name, name ∈ ready.values ↔ name ∈ Library.ready names.toFinset edges done
  closed : ∀ node ∈ done, ∀ source, Library.Inner names.toFinset edges source node → source ∈ done

variable {done : Finset String}

section

variable (formed : WellFormed names edges)
include formed

theorem pending_eq_zero_iff (reserved : START ∉ names) {name : String} (member : name ∈ names) :
    pending edges done name = 0 ↔ ∀ source, Library.Inner names.toFinset edges source name → source ∈ done := by
  simp only [pending, countP_eq_zero, Bool.and_eq_true, decide_eq_true_eq, Prod.forall,
    Library.Inner, mem_toFinset]
  constructor
  · rintro none source ⟨inside, -, edge⟩
    by_contra out
    have other : source ≠ START := fun same => reserved (same ▸ inside)
    exact none source name edge ⟨⟨rfl, other⟩, out⟩
  · rintro all source _ edge ⟨⟨rfl, other⟩, out⟩
    exact out (all source ⟨(formed.source _ edge).resolve_left other, member, edge⟩)

theorem Rounds.start (reserved : START ∉ names) :
    Rounds names edges ∅ (indegree edges)
      (KeyedMap.collect id (names.filter (fun name => indegree edges name = 0))) where
  degrees name _ := by rw [indegree_eq_pending]
  ready name := by
    have collected : name ∈ (KeyedMap.collect id (names.filter (fun name => indegree edges name = 0))).values ↔
        name ∈ names.filter (fun name => indegree edges name = 0) := by
      have found : (KeyedMap.collect id (names.filter (fun name => indegree edges name = 0))).find? name =
          some name ↔ name ∈ names.filter (fun name => indegree edges name = 0) ∧ id name = name :=
        KeyedMap.find?_collect_eq_some_iff (fun _ _ _ _ same => same)
      rw [KeyedMap.find?_eq_some_iff] at found
      simpa using found
    rw [collected, mem_filter, mem_ready, decide_eq_true_eq, indegree_eq_pending, mem_toFinset]
    constructor
    · rintro ⟨member, zero⟩
      exact ⟨member, Finset.notMem_empty name, (pending_eq_zero_iff formed reserved member).mp zero⟩
    · rintro ⟨member, -, before⟩
      exact ⟨member, (pending_eq_zero_iff formed reserved member).mpr before⟩
  closed := by simp

/-- A round makes its layer done. -/
theorem Rounds.next (reserved : START ∉ names ∧ END ∉ names) {degrees : String → Nat}
    {ready : NameSet} (rounds : Rounds names edges done degrees ready) :
    Rounds names edges (done ∪ ready.values.toFinset)
      ((ready.values.flatMap (outgoing edges)).foldl release (degrees, .empty id)).1
      ((ready.values.flatMap (outgoing edges)).foldl release (degrees, .empty id)).2 := by
  have inside (node : String) (member : node ∈ ready.values) : node ∈ names :=
    mem_toFinset.mp (mem_ready.mp ((rounds.ready node).mp member)).1
  have fresh (node : String) (member : node ∈ ready.values) : node ∉ done ∧ node ≠ START :=
    ⟨(mem_ready.mp ((rounds.ready node).mp member)).2.1, fun same => reserved.1 (same ▸ inside node member)⟩
  have before (node source : String) (member : node ∈ ready.values)
      (inner : Library.Inner names.toFinset edges source node) : source ∈ done :=
    (mem_ready.mp ((rounds.ready node).mp member)).2.2 source inner
  have released (name : String) (member : name ∈ names) :
      (ready.values.flatMap (outgoing edges)).count name = arriving edges ready.values name :=
    count_flatMap_outgoing ready.values_nodup fun same => reserved.2 (same ▸ member)
  refine ⟨fun name member => ?_, fun name => ?_, fun node member source inner => ?_⟩
  · rw [(foldl_release _ degrees _ name).1, rounds.degrees name member, released name member]
    have same : pending edges (done ∪ ready.values.toFinset) name + arriving edges ready.values name =
        pending edges done name := pending_union fresh
    omega
  · rw [(foldl_release _ degrees _ name).2, mem_ready, mem_toFinset, mem_flatMap_outgoing]
    constructor
    · rintro (none | ⟨⟨inner, source, member, edge⟩, few⟩)
      · cases none
      have known : name ∈ names := (formed.target _ edge).resolve_left inner
      have path : Library.Inner names.toFinset edges source name :=
        ⟨mem_toFinset.mpr (inside source member), mem_toFinset.mpr known, edge⟩
      refine ⟨known, fun old => ?_, (pending_eq_zero_iff formed reserved.1 known).mp ?_⟩
      · -- its source would be done before the round
        rcases Finset.mem_union.mp old with old | new
        · exact (fresh source member).1 (rounds.closed name old source path)
        · exact (fresh source member).1 (before name source (mem_toFinset.mp new) path)
      · rw [rounds.degrees name known, released name known, ← pending_union fresh] at few
        omega
    · rintro ⟨known, out, all⟩
      obtain ⟨old, new⟩ := not_or.mp (Finset.mem_union.not.mp out)
      have last : pending edges (done ∪ ready.values.toFinset) name = 0 :=
        (pending_eq_zero_iff formed reserved.1 known).mpr all
      -- the name was not ready, so one of its predecessors is of this layer
      have waited : ¬ ∀ source, Library.Inner names.toFinset edges source name → source ∈ done :=
        fun done => new (mem_toFinset.mpr ((rounds.ready name).mpr
          (mem_ready.mpr ⟨mem_toFinset.mpr known, old, done⟩)))
      push Not at waited
      obtain ⟨source, path, waiting⟩ := waited
      have member : source ∈ ready.values :=
        mem_toFinset.mp ((Finset.mem_union.mp (all source path)).resolve_left waiting)
      refine .inr ⟨⟨fun same => reserved.2 (same ▸ known), source, member, path.2.2⟩, ?_⟩
      rw [rounds.degrees name known, released name known, ← pending_union fresh]
      omega
  · rcases Finset.mem_union.mp member with old | new
    · exact Finset.mem_union_left _ (rounds.closed node old source inner)
    · exact Finset.mem_union_left _ (before node source (mem_toFinset.mp new) inner)

/-- The rounds of the loop are the layers of the graph of the nodes. -/
theorem Rounds.layers (reserved : START ∉ names ∧ END ∉ names) {degrees : String → Nat}
    {ready : NameSet} (rounds : Rounds names edges done degrees ready) (fuel : Nat) :
    (layersFrom edges fuel degrees ready).map List.toFinset = peel names.toFinset edges fuel done ∧
      ∀ layer ∈ layersFrom edges fuel degrees ready, layer.Nodup := by
  have same {done : Finset String} {degrees : String → Nat} {ready : NameSet}
      (rounds : Rounds names edges done degrees ready) :
      ready.values.toFinset = Library.ready names.toFinset edges done := by
    ext name
    rw [mem_toFinset, rounds.ready name]
  induction fuel generalizing done degrees ready with
  | zero => exact ⟨rfl, nofun⟩
  | succ fuel ih =>
    rw [layersFrom, peel, ← same rounds]
    by_cases none : ready.values = []
    · simp [none]
    · obtain ⟨later, distinct⟩ := ih (rounds.next formed reserved)
      have some : ready.values.toFinset ≠ ∅ := by simpa using none
      rw [if_neg (by simpa using none), if_neg some, map_cons, later]
      refine ⟨rfl, ?_⟩
      intro layer member
      rcases mem_cons.mp member with rfl | old
      · exact ready.values_nodup
      · exact distinct layer old

end

/-- The layers have every node once, and each node after its predecessors. -/
structure Layering (names : List String) (edges : Edges) (layers : List (List String)) : Prop where
  partition : layers.flatten.Perm names
  inhabited : ∀ layer ∈ layers, layer ≠ []
  later : ∀ front layer back, layers = front ++ layer :: back → ∀ name ∈ layer, ∀ source ∈ names,
    (source, name) ∈ edges → source ∈ front.flatten

theorem mem_covered_map_toFinset {layers : List (List String)} {name : String} :
    name ∈ covered (layers.map List.toFinset) ↔ name ∈ layers.flatten := by
  simp [mem_covered]

/-- Layers are found if there is no cycle. -/
theorem topologicalLayers_ok_iff (formed : WellFormed names edges) (distinct : names.Nodup)
    (reserved : START ∉ names ∧ END ∉ names) :
    (∃ layers, topologicalLayers names edges = .ok layers) ↔ Acyclic names.toFinset edges := by
  obtain ⟨same, nodup⟩ := (Rounds.start formed reserved.1).layers formed reserved names.length
  have all : names.toFinset.card = names.length := toFinset_card_of_nodup distinct
  rw [← card_peel_iff all.le, ← same, all, map_map]
  have counted (layers : List (List String)) (nodup : ∀ layer ∈ layers, layer.Nodup) :
      layers.map (Finset.card ∘ List.toFinset) = layers.map List.length :=
    map_congr_left fun layer member => toFinset_card_of_nodup (nodup layer member)
  rw [counted _ nodup]
  simp only [topologicalLayers]
  split <;> simp_all

/-- They have every node after its predecessors. -/
theorem topologicalLayers_layering (formed : WellFormed names edges) (distinct : names.Nodup)
    (reserved : START ∉ names ∧ END ∉ names) {layers : List (List String)}
    (built : topologicalLayers names edges = .ok layers) : Layering names edges layers := by
  obtain ⟨same, nodup⟩ := (Rounds.start formed reserved.1).layers formed reserved names.length
  have acyclic : Acyclic names.toFinset edges :=
    (topologicalLayers_ok_iff formed distinct reserved).mp ⟨layers, built⟩
  simp only [topologicalLayers] at built
  split at built
  · cases built
  rename_i counted
  rw [not_not] at counted
  cases built
  generalize layersFrom edges names.length _ _ = layers at same nodup counted
  refine ⟨?_, ?_, ?_⟩
  · have none : Library.ready names.toFinset edges
        (∅ ∪ covered (peel names.toFinset edges names.length ∅)) = ∅ := by
      apply ready_peel
      simpa using toFinset_card_le names
    have all : names ⊆ layers.flatten := by
      intro name member
      have found := subset_of_ready_empty acyclic none (mem_toFinset.mpr member)
      rw [Finset.empty_union, ← same] at found
      exact mem_covered_map_toFinset.mp found
    have inside : names.Subperm layers.flatten := distinct.subperm all
    rw [← length_flatten] at counted
    exact (inside.perm_of_length_le counted.le).symm
  · rintro layer member rfl
    obtain ⟨front, back, split⟩ := append_of_mem member
    rw [split, map_append, map_cons] at same
    exact (peel_split same.symm).2 rfl
  · rintro _ layer _ rfl name member source known edge
    rw [map_append, map_cons] at same
    obtain ⟨ready, -⟩ := peel_split same.symm
    have member : name ∈ layer.toFinset := mem_toFinset.mpr member
    rw [ready, Finset.empty_union, mem_ready] at member
    exact mem_covered_map_toFinset.mp
      (member.2.2 source ⟨mem_toFinset.mpr known, member.1, edge⟩)

end Layers

/-! ## Reachability and inputs -/

/-- When everything is reached. -/
theorem validateReachability_eq_ok_iff :
    validateReachability names edges = .ok () ↔
      (∀ name ∈ names, Relation.ReflTransGen (Edge edges) START name) ∧
        Relation.ReflTransGen (Edge edges) START END := by
  simp only [← mem_search_iff, validateReachability]
  cases found : names.find? (fun name => name ∉ search edges (edges.length + 1) [START] ∅) with
  | some name => grind
  | none =>
    have all : ∀ name ∈ names, name ∈ search edges (edges.length + 1) [START] ∅ := by simp_all
    simp_all

/-- What is reached from the input, and is not the input, has a source. -/
theorem sources_ne_nil (path : Relation.ReflTransGen (Edge edges) START name)
    (other : name ≠ START) : sources edges name ≠ [] := by
  rcases Relation.ReflTransGen.cases_tail path with same | ⟨_, _, edge⟩
  · exact absurd same other
  · exact ne_nil_of_mem (mem_sources.mpr edge)

theorem get?_foldl_put_nil (names : List String) (entries : Entries String (List String))
    (name : String) :
    (names.foldl (fun incoming name => incoming.put name []) entries).get? name =
      if name ∈ names then some [] else entries.get? name := by
  induction names generalizing entries with
  | nil => rfl
  | cons first rest ih =>
    rw [foldl_cons, ih, Entries.get?_put]
    grind

theorem get?_foldl_push (edges : Edges) (entries : Entries String (List String))
    {listed : List String} (present : entries.get? name = some listed) :
    (edges.foldl (fun incoming edge =>
        incoming.put edge.2 ((incoming.get? edge.2).getD [] ++ [edge.1])) entries).get? name =
      some (listed ++ sources edges name) := by
  induction edges generalizing entries listed with
  | nil => simpa [sources] using present
  | cons edge rest ih =>
    rw [foldl_cons]
    by_cases own : edge.2 = name
    · have pushed : (entries.put edge.2 ((entries.get? edge.2).getD [] ++ [edge.1])).get? name =
          some (listed ++ [edge.1]) := by
        rw [Entries.get?_put, if_pos own, own, present]
        rfl
      rw [ih _ pushed]
      simp [sources, own]
    · have kept : (entries.put edge.2 ((entries.get? edge.2).getD [] ++ [edge.1])).get? name =
          some listed := by
        rw [Entries.get?_put, if_neg own, present]
      rw [ih _ kept]
      simp [sources, own]

/-- The sources of a node. -/
theorem get?_incomingEdges (known : name ∈ names ∨ name = END) :
    (incomingEdges names edges).get? name = some (sources edges name) := by
  have listed : ((names ++ [END]).foldl (fun incoming name => incoming.put name []) (.empty _) :
      Entries String (List String)).get? name = some [] := by
    rw [get?_foldl_put_nil, if_pos (by simpa using known)]
  exact get?_foldl_push edges _ listed

/-! ## Compiled graphs -/

variable {Node : Type}

theorem GraphBuilder.reserved (builder : GraphBuilder Node) :
    START ∉ builder.nodes.keys ∧ END ∉ builder.nodes.keys := by
  constructor
  · intro member
    have valid := builder.named _ member
    contradiction
  · intro member
    have valid := builder.named _ member
    contradiction

/-- What a builder must be to compile. -/
structure GraphBuilder.Sound (builder : GraphBuilder Node) : Prop where
  formed : WellFormed builder.nodes.keys builder.edges
  acyclic : Acyclic builder.nodes.keys.toFinset builder.edges
  reached : ∀ name ∈ builder.nodes.keys, Relation.ReflTransGen (Edge builder.edges) START name
  ends : Relation.ReflTransGen (Edge builder.edges) START END

variable {builder : GraphBuilder Node}

/-- What a compiled graph is made of. -/
theorem GraphBuilder.compile_ok_iff {graph : CompiledGraph Node} :
    builder.compile = .ok graph ↔
      validateEdges builder.nodes.keys builder.edges = .ok () ∧
      topologicalLayers builder.nodes.keys builder.edges = .ok graph.layers ∧
      validateReachability builder.nodes.keys builder.edges = .ok () ∧
      graph.nodes = builder.nodes ∧ graph.topology = graph.layers.flatten ∧
      graph.incoming = incomingEdges builder.nodes.keys builder.edges := by
  constructor
  · intro compiled
    obtain ⟨⟨⟩, edges, compiled⟩ := bind_ok compiled
    obtain ⟨layers, layered, compiled⟩ := bind_ok compiled
    obtain ⟨⟨⟩, reached, compiled⟩ := bind_ok compiled
    cases compiled
    simp_all
  · rintro ⟨edges, layered, reached, nodes, topology, incoming⟩
    obtain ⟨_, _, _, _⟩ := graph
    dsimp only at *
    subst nodes topology incoming
    simp only [compile, edges, layered, reached]
    rfl

/-- A builder compiles exactly when it is sound.

Proof: an edge from the input and one to the output are there because the output is reached. -/
theorem GraphBuilder.exists_compile_iff :
    (∃ graph, builder.compile = .ok graph) ↔ builder.Sound := by
  have distinct := builder.nodes.keys_nodup
  constructor
  · rintro ⟨_, compiled⟩
    obtain ⟨edges, layered, reached, -⟩ := compile_ok_iff.mp compiled
    obtain ⟨formed, -⟩ := validateEdges_eq_ok_iff.mp edges
    obtain ⟨nodes, ends⟩ := validateReachability_eq_ok_iff.mp reached
    exact ⟨formed, (topologicalLayers_ok_iff formed distinct builder.reserved).mp ⟨_, layered⟩,
      nodes, ends⟩
  · intro sound
    obtain ⟨layers, layered⟩ :=
      (topologicalLayers_ok_iff sound.formed distinct builder.reserved).mpr sound.acyclic
    have other : END ≠ START := by decide
    have start : ∃ edge ∈ builder.edges, edge.1 = START := by
      rcases Relation.ReflTransGen.cases_head sound.ends with same | ⟨_, edge, _⟩
      · exact absurd same.symm other
      · exact ⟨_, edge, rfl⟩
    have ends : ∃ edge ∈ builder.edges, edge.2 = END := by
      rcases Relation.ReflTransGen.cases_tail sound.ends with same | ⟨_, _, edge⟩
      · exact absurd same other
      · exact ⟨_, edge, rfl⟩
    exact ⟨⟨builder.nodes, incomingEdges builder.nodes.keys builder.edges, layers.flatten, layers⟩,
      compile_ok_iff.mpr ⟨validateEdges_eq_ok_iff.mpr ⟨sound.formed, start, ends⟩, layered,
        validateReachability_eq_ok_iff.mpr ⟨sound.reached, sound.ends⟩, rfl, rfl, rfl⟩⟩

/-- A compiled graph, by the edges it was built from. -/
structure CompiledGraph.Ordered (graph : CompiledGraph Node) (edges : Edges) : Prop where
  layering : Layering graph.nodes.keys edges graph.layers
  topology : graph.topology = graph.layers.flatten
  reserved : START ∉ graph.nodes.keys ∧ END ∉ graph.nodes.keys
  known : ∀ edge ∈ edges, edge.1 = START ∨ edge.1 ∈ graph.nodes.keys
  incoming : ∀ name, name ∈ graph.nodes.keys ∨ name = END →
    graph.incoming.get? name = some (sources edges name) ∧ sources edges name ≠ []

/-- Its layers are ordered. -/
theorem GraphBuilder.compile_ordered {graph : CompiledGraph Node}
    (compiled : builder.compile = .ok graph) : graph.Ordered builder.edges := by
  obtain ⟨-, layered, -, nodes, topology, incoming⟩ := compile_ok_iff.mp compiled
  have sound : builder.Sound := exists_compile_iff.mp ⟨graph, compiled⟩
  have layering := topologicalLayers_layering sound.formed builder.nodes.keys_nodup builder.reserved
    layered
  rw [← nodes] at layering
  refine ⟨layering, topology, ?_, ?_, ?_⟩
  · rw [nodes]
    exact builder.reserved
  · rw [nodes]
    exact sound.formed.source
  · intro name place
    rw [nodes] at place
    rw [incoming, get?_incomingEdges place]
    refine ⟨rfl, ?_⟩
    rcases place with member | rfl
    · exact sources_ne_nil (sound.reached name member) fun same => builder.reserved.1 (same ▸ member)
    · exact sources_ne_nil sound.ends (by decide)

end Roze.Ai
