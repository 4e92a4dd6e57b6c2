import Mathlib

/-!
# Reachability and layers of a finite graph

A graph is a list of edges. A search from a queue of nodes visits exactly the nodes that can be
reached. Taking away, again and again, all nodes whose predecessors are gone gives the layers of
the graph; the layers take every node exactly when there is no cycle.
-/

namespace Roze.Library

universe u

variable {α : Type u} [DecidableEq α]

/-- There is an edge from the first node to the second. -/
def Edge (edges : List (α × α)) (source target : α) : Prop := (source, target) ∈ edges

/-! ## Search -/

/-- The ends of the edges that start at a node, in the order of the edges. -/
def successors (edges : List (α × α)) (node : α) : List α :=
  (edges.filter (fun edge => edge.1 = node)).map Prod.snd

/-- Visit the nodes of a queue; a node that is new puts its successors at the end. -/
def search (edges : List (α × α)) : Nat → List α → Finset α → Finset α
  | 0, _, visited => visited
  | _ + 1, [], visited => visited
  | fuel + 1, node :: queue, visited =>
      if node ∈ visited then search edges fuel queue visited
      else search edges fuel (queue ++ successors edges node) (insert node visited)

variable {edges : List (α × α)}

theorem mem_successors {node target : α} : target ∈ successors edges node ↔ Edge edges node target := by
  simp [successors, Edge]

variable {fuel : Nat} {visited : Finset α}

/-- Only what can be reached is visited. -/
theorem reachable_of_mem_search {queue : List α} {node : α}
    (found : node ∈ search edges fuel queue visited) :
    node ∈ visited ∨ ∃ start ∈ queue, Relation.ReflTransGen (Edge edges) start node := by
  induction fuel generalizing queue visited with
  | zero => exact .inl found
  | succ fuel ih =>
    cases queue with
    | nil => exact .inl found
    | cons first =>
      rw [search] at found
      split at found
      · grind
      · rcases ih found with old | ⟨start, member, path⟩
        · rcases Finset.mem_insert.mp old with rfl | old
          · exact .inr ⟨node, List.mem_cons_self, .refl⟩
          · exact .inl old
        · rcases List.mem_append.mp member with waiting | successor
          · grind
          · exact .inr ⟨first, List.mem_cons_self, .head (mem_successors.mp successor) path⟩

/-- The edges whose sources are not visited yet. -/
def unspent (edges : List (α × α)) (visited : Finset α) : Nat :=
  edges.countP (fun edge => edge.1 ∉ visited)

/-- Visiting a node spends its edges. -/
theorem unspent_insert {node : α} (fresh : node ∉ visited) :
    unspent edges (insert node visited) + (successors edges node).length = unspent edges visited := by
  induction edges with
  | nil => rfl
  | cons edge rest ih =>
    simp only [unspent, successors, List.length_map] at ih ⊢
    rw [List.countP_cons, List.countP_cons, List.filter_cons]
    by_cases own : edge.1 = node
    · have inside : edge.1 ∈ insert node visited := by simp [own]
      have outside : edge.1 ∉ visited := by rw [own]; exact fresh
      grind
    · grind

/-- What a search with enough fuel returns has the queue and what was visited, and every
successor of what it has.

Proof: a node that is taken from the queue shortens it, and spends as many edges as it makes the
queue longer. -/
theorem search_closed {queue : List α} (enough : queue.length + unspent edges visited ≤ fuel)
    (pending : ∀ node ∈ visited, ∀ target, Edge edges node target → target ∈ visited ∨ target ∈ queue) :
    visited ⊆ search edges fuel queue visited ∧ (∀ node ∈ queue, node ∈ search edges fuel queue visited) ∧
      ∀ node ∈ search edges fuel queue visited, ∀ target, Edge edges node target →
        target ∈ search edges fuel queue visited := by
  induction fuel generalizing queue visited with
  | zero =>
    obtain rfl : queue = [] := List.eq_nil_of_length_eq_zero (by omega)
    refine ⟨Finset.Subset.refl _, nofun, fun node member target edge => ?_⟩
    exact (pending node member target edge).resolve_right List.not_mem_nil
  | succ fuel ih =>
    cases queue with
    | nil =>
      refine ⟨Finset.Subset.refl _, nofun, fun node member target edge => ?_⟩
      exact (pending node member target edge).resolve_right List.not_mem_nil
    | cons first rest =>
      rw [search]
      split
      · rename_i known
        have less : rest.length + unspent edges visited ≤ fuel := by grind
        have still : ∀ node ∈ visited, ∀ target, Edge edges node target →
            target ∈ visited ∨ target ∈ rest := by
          intro node member target edge
          grind
        grind
      · rename_i fresh
        have spent : unspent edges (insert first visited) + (successors edges first).length =
            unspent edges visited := unspent_insert fresh
        have less : (rest ++ successors edges first).length + unspent edges (insert first visited) ≤
            fuel := by grind
        have still : ∀ node ∈ insert first visited, ∀ target, Edge edges node target →
            target ∈ insert first visited ∨ target ∈ rest ++ successors edges first := by
          intro node member target edge
          rcases Finset.mem_insert.mp member with rfl | old
          · exact .inr (List.mem_append_right rest (mem_successors.mpr edge))
          · rcases pending node old target edge with known | waiting
            · simp_all
            · grind
        obtain ⟨kept, queued, closed⟩ := ih less still
        refine ⟨(Finset.subset_insert _ _).trans kept, fun node member => ?_, closed⟩
        grind

/-- A search from one node visits exactly what can be reached from it. -/
theorem mem_search_iff {start node : α} :
    node ∈ search edges (edges.length + 1) [start] ∅ ↔
      Relation.ReflTransGen (Edge edges) start node := by
  constructor
  · intro found
    rcases reachable_of_mem_search found with old | ⟨_, member, path⟩
    · contradiction
    · simp_all
  · intro path
    have bound : unspent edges ∅ ≤ edges.length := List.countP_le_length
    have enough : [start].length + unspent edges ∅ ≤ edges.length + 1 := by
      simp only [List.length_singleton]
      omega
    obtain ⟨-, queued, closed⟩ := search_closed enough (by simp)
    induction path with
    | refl => simp_all
    | tail _ edge ih => exact closed _ ih _ edge

/-! ## Layers -/

/-- An edge between two of the nodes. -/
def Inner (nodes : Finset α) (edges : List (α × α)) (source target : α) : Prop :=
  source ∈ nodes ∧ target ∈ nodes ∧ Edge edges source target

/-- No node comes before itself. -/
def Acyclic (nodes : Finset α) (edges : List (α × α)) : Prop :=
  ∀ node, ¬ Relation.TransGen (Inner nodes edges) node node

/-- The nodes that are left and have no predecessor left. -/
def ready (nodes : Finset α) (edges : List (α × α)) (done : Finset α) : Finset α :=
  nodes.filter (fun node => node ∉ done ∧
    ∀ edge ∈ edges, edge.2 = node → edge.1 ∈ nodes → edge.1 ∈ done)

/-- Take away what is ready until nothing is. -/
def peel (nodes : Finset α) (edges : List (α × α)) : Nat → Finset α → List (Finset α)
  | 0, _ => []
  | fuel + 1, done =>
      if ready nodes edges done = ∅ then []
      else ready nodes edges done :: peel nodes edges fuel (done ∪ ready nodes edges done)

/-- The nodes of some layers together. -/
def covered (layers : List (Finset α)) : Finset α := layers.foldr (· ∪ ·) ∅

variable {nodes : Finset α} {done : Finset α} {node : α}

theorem mem_ready : node ∈ ready nodes edges done ↔
    node ∈ nodes ∧ node ∉ done ∧ ∀ source, Inner nodes edges source node → source ∈ done := by
  simp only [ready, Finset.mem_filter, Inner, Edge, Prod.forall]
  constructor <;> grind

theorem covered_cons (layer : Finset α) (layers : List (Finset α)) :
    covered (layer :: layers) = layer ∪ covered layers := rfl

theorem mem_covered {layers : List (Finset α)} : node ∈ covered layers ↔ ∃ layer ∈ layers, node ∈ layer := by
  induction layers with
  | nil => simp [covered]
  | cons layer rest ih => simp [covered_cons, ih]

/-- The layers are new nodes, and together they have as many as each has alone. -/
theorem covered_peel (fuel : Nat) (done : Finset α) :
    covered (peel nodes edges fuel done) ⊆ nodes ∧ Disjoint (covered (peel nodes edges fuel done)) done ∧
      (covered (peel nodes edges fuel done)).card = ((peel nodes edges fuel done).map Finset.card).sum := by
  induction fuel generalizing done with
  | zero => exact ⟨Finset.empty_subset _, Finset.disjoint_empty_left _, rfl⟩
  | succ fuel ih =>
    rw [peel]
    split
    · exact ⟨Finset.empty_subset _, Finset.disjoint_empty_left _, rfl⟩
    · obtain ⟨inside, apart, counted⟩ := ih (done ∪ ready nodes edges done)
      obtain ⟨fresh, later⟩ := Finset.disjoint_union_right.mp apart
      have first : Disjoint (ready nodes edges done) done := by
        rw [Finset.disjoint_left]
        intro node member
        exact (mem_ready.mp member).2.1
      rw [covered_cons]
      refine ⟨Finset.union_subset (Finset.filter_subset _ _) inside,
        Finset.disjoint_union_left.mpr ⟨first, fresh⟩, ?_⟩
      rw [Finset.card_union_of_disjoint later.symm, counted]
      rfl

/-- Each layer is what is ready after the layers before it. -/
theorem peel_split {front back : List (Finset α)} {layer : Finset α}
    (split : peel nodes edges fuel done = front ++ layer :: back) :
    layer = ready nodes edges (done ∪ covered front) ∧ layer ≠ ∅ := by
  induction front generalizing fuel done with
  | nil =>
    cases fuel with
    | zero => cases split
    | succ =>
      rw [peel] at split
      split at split
      · cases split
      · rename_i some
        cases split
        rw [covered, List.foldr_nil, Finset.union_empty]
        exact ⟨rfl, some⟩
  | cons first front ih =>
    cases fuel with
    | zero => cases split
    | succ =>
      rw [peel] at split
      split at split
      · cases split
      · obtain ⟨rfl, later⟩ := List.cons.inj split
        rw [covered_cons, ← Finset.union_assoc]
        exact ih later

/-- With enough fuel nothing is ready at the end. -/
theorem ready_peel (enough : (nodes \ done).card ≤ fuel) :
    ready nodes edges (done ∪ covered (peel nodes edges fuel done)) = ∅ := by
  induction fuel generalizing done with
  | zero =>
    have all : nodes ⊆ done := Finset.sdiff_eq_empty_iff_subset.mp (Finset.card_eq_zero.mp (by omega))
    rw [Finset.eq_empty_iff_forall_notMem]
    intro node member
    obtain ⟨inside, fresh, -⟩ := mem_ready.mp member
    grind
  | succ fuel ih =>
    rw [peel]
    split
    · rename_i none
      rw [covered, List.foldr_nil, Finset.union_empty]
      exact none
    · rename_i some
      obtain ⟨node, member⟩ := Finset.nonempty_iff_ne_empty.mpr some
      obtain ⟨inside, fresh, -⟩ := mem_ready.mp member
      have fewer : (nodes \ (done ∪ ready nodes edges done)).card < (nodes \ done).card := by
        apply Finset.card_lt_card
        rw [Finset.ssubset_iff_of_subset (Finset.sdiff_subset_sdiff (Finset.Subset.refl _)
          Finset.subset_union_left)]
        exact ⟨node, Finset.mem_sdiff.mpr ⟨inside, fresh⟩, by simp [member]⟩
      rw [covered_cons, ← Finset.union_assoc]
      exact ih (by omega)

/-- Without cycles something is ready until all nodes are done.

Proof: what comes before is well founded on the nodes that are left, so one of them has no
predecessor among them. -/
theorem subset_of_ready_empty (acyclic : Acyclic nodes edges) (none : ready nodes edges done = ∅) :
    nodes ⊆ done := by
  by_contra left
  obtain ⟨node, inside, fresh⟩ := Finset.not_subset.mp left
  let Left := { node // node ∈ nodes \ done }
  let before (first second : Left) : Prop := Relation.TransGen (Inner nodes edges) first.1 second.1
  have : Std.Irrefl before := ⟨fun node => acyclic node.1⟩
  have founded : WellFounded before := Finite.wellFounded_of_trans_of_irrefl before
  obtain ⟨least, -, minimal⟩ := founded.has_min Set.univ
    ⟨⟨node, Finset.mem_sdiff.mpr ⟨inside, fresh⟩⟩, Set.mem_univ _⟩
  obtain ⟨leastInside, leastFresh⟩ := Finset.mem_sdiff.mp least.2
  have member : least.1 ∈ ready nodes edges done := by
    refine mem_ready.mpr ⟨leastInside, leastFresh, fun source inner => ?_⟩
    by_contra waiting
    exact minimal ⟨source, Finset.mem_sdiff.mpr ⟨inner.1, waiting⟩⟩ (Set.mem_univ _) (.single inner)
  simp_all

/-- The predecessors of the nodes are among them, and none of them comes before itself. -/
structure Settled (nodes : Finset α) (edges : List (α × α)) (done : Finset α) : Prop where
  closed : ∀ node ∈ done, ∀ source, Inner nodes edges source node → source ∈ done
  acyclic : ∀ node ∈ done, ¬ Relation.TransGen (Inner nodes edges) node node

theorem Settled.ready (settled : Settled nodes edges done) :
    Settled nodes edges (done ∪ ready nodes edges done) where
  closed node member source inner := by
    apply Finset.mem_union_left
    rcases Finset.mem_union.mp member with old | new
    · exact settled.closed node old source inner
    · exact (mem_ready.mp new).2.2 source inner
  acyclic node member cycle := by
    rcases Finset.mem_union.mp member with old | new
    · exact settled.acyclic node old cycle
    · -- the node before it on the cycle is done, and it is on the same cycle
      obtain ⟨source, path, inner⟩ := Relation.TransGen.tail'_iff.mp cycle
      have old : source ∈ done := (mem_ready.mp new).2.2 source inner
      exact settled.acyclic source old (Relation.TransGen.head' inner path)

theorem Settled.peel (settled : Settled nodes edges done) :
    Settled nodes edges (done ∪ covered (peel nodes edges fuel done)) := by
  induction fuel generalizing done with
  | zero =>
    rw [Library.peel, covered, List.foldr_nil, Finset.union_empty]
    exact settled
  | succ fuel ih =>
    rw [Library.peel]
    split
    · rw [covered, List.foldr_nil, Finset.union_empty]
      exact settled
    · rw [covered_cons, ← Finset.union_assoc]
      exact ih settled.ready

/-- The layers take every node exactly when there is no cycle. -/
theorem card_peel_iff (enough : nodes.card ≤ fuel) :
    ((peel nodes edges fuel ∅).map Finset.card).sum = nodes.card ↔ Acyclic nodes edges := by
  obtain ⟨inside, -, counted⟩ : _ ⊆ nodes ∧ Disjoint _ ∅ ∧
      (covered (peel nodes edges fuel ∅)).card = _ := covered_peel fuel ∅
  rw [← counted]
  constructor
  · intro all node cycle
    have full : covered (peel nodes edges fuel ∅) = nodes := Finset.eq_of_subset_of_card_le inside all.ge
    have empty : Settled nodes edges ∅ := ⟨by simp, by simp⟩
    have settled : Settled nodes edges (∅ ∪ covered (peel nodes edges fuel ∅)) := empty.peel
    rw [Finset.empty_union, full] at settled
    obtain ⟨_, _, inner⟩ := Relation.TransGen.tail'_iff.mp cycle
    exact settled.acyclic node inner.2.1 cycle
  · intro acyclic
    have none : ready nodes edges (∅ ∪ covered (peel nodes edges fuel ∅)) = ∅ :=
      ready_peel (by simpa using enough)
    rw [Finset.empty_union] at none
    exact congrArg Finset.card (Finset.Subset.antisymm inside (subset_of_ready_empty acyclic none))

end Roze.Library
