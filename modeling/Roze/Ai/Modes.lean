import Roze.Ai.Compilation
import Roze.Ai.Execution

/-!
# The modes of execution agree

The nodes of one layer do not feed each other. So a layer at a time gives each of its nodes the
input that it has when the nodes run one after another, and the first error in the order of the
layer is the first error in the order of the nodes. A stream does what the invocation does and ends
the way it ends, whatever the nodes do.
-/

namespace Roze.Ai

open Roze.Library List

variable {Node Number E : Type}

/-! ## Layers -/

/-- The inputs of a name depend on the values of its sources only. -/
theorem collectInputs_congr {name : String} {incoming : Entries String (List String)}
    {listed : List String} (found : incoming.get? name = some listed) {first second : Values Number}
    (same : ∀ source ∈ listed, first.get? source = second.get? source) :
    collectInputs name incoming first = collectInputs name incoming second := by
  have inputs : listed.mapM (sourceValue name first) = listed.mapM (sourceValue name second) := by
    clear found
    induction listed with
    | nil => rfl
    | cons source rest ih =>
      have head : sourceValue name first source = sourceValue name second source := by
        rw [sourceValue, sourceValue, same source mem_cons_self]
      simp_all
  simp only [collectInputs, found, inputs]

namespace CompiledGraph

variable {graph : CompiledGraph Node} {edges : Edges} {attempt : Attempt Node Number E}

section

variable (ordered : graph.Ordered edges)
include ordered

/-- The output of a node does not depend on the values of other nodes than its sources. -/
theorem Ordered.executeNode_put {name other : String} (known : name ∈ graph.nodes.keys)
    (apart : (other, name) ∉ edges) (values : Values Number) (value : Json Number) :
    graph.executeNode attempt name (values.put other value) none =
      graph.executeNode attempt name values none := by
  have same : collectInputs name graph.incoming (values.put other value) =
      collectInputs name graph.incoming values := by
    apply collectInputs_congr (ordered.incoming name (.inl known)).1
    intro source member
    have different : other ≠ source := fun same => apart (same ▸ mem_sources.mp member)
    rw [Entries.get?_put, if_neg different]
  simp only [executeNode, prepare, same]

theorem mem_topology {name : String} :
    name ∈ graph.topology ↔ name ∈ graph.nodes.keys := by
  rw [ordered.topology]
  exact ordered.layering.partition.mem_iff

theorem topology_nodup : graph.topology.Nodup := by
  rw [ordered.topology]
  exact ordered.layering.partition.nodup_iff.mpr graph.nodes.keys_nodup

/-- No edge joins two nodes of a layer. -/
theorem Ordered.apart {layer : List String} (member : layer ∈ graph.layers) {first second : String}
    (left : first ∈ layer) (right : second ∈ layer) : (first, second) ∉ edges := by
  intro edge
  obtain ⟨front, back, split⟩ := append_of_mem member
  have inside : first ∈ graph.nodes.keys :=
    ordered.layering.partition.mem_iff.mp (mem_flatten.mpr ⟨layer, member, left⟩)
  have before : first ∈ front.flatten :=
    ordered.layering.later front layer back split second right first inside edge
  have distinct := topology_nodup ordered
  rw [ordered.topology, split, flatten_append, flatten_cons] at distinct
  grind

/-- A layer at a time gives what its nodes give one after another.

Proof: by induction on the nodes that are left, with the values of the start of the layer kept.
What was filed since then is of nodes of the layer, which are no sources. -/
theorem Ordered.runLayer_eq {layer : List String} (member : layer ∈ graph.layers)
    (passed : checkContext attempt (.layer layer) = .ok ()) (values : Values Number) :
    graph.runLayer attempt values layer = graph.runNodes attempt layer values := by
  have known (name : String) (inside : name ∈ layer) : name ∈ graph.nodes.keys :=
    ordered.layering.partition.mem_iff.mp (mem_flatten.mpr ⟨layer, member, inside⟩)
  have loop : ∀ (left : List String) (filed : Values Number), left ⊆ layer →
      (∀ name ∈ left, graph.executeNode attempt name filed none =
        graph.executeNode attempt name values none) →
      (left.map (fun name => (name, graph.executeNode attempt name values none))).foldlM
          (fun values (output : String × Except (AiError E) (Json Number)) => do
            let value ← output.2
            return values.put output.1 value) filed =
        graph.runNodes attempt left filed := by
    intro left
    induction left with
    | nil =>
      intro filed _ _
      rfl
    | cons first rest ih =>
      intro filed inside same
      obtain ⟨here, later⟩ := cons_subset.mp inside
      rw [map_cons, foldlM_cons, runNodes, foldlM_cons, same first mem_cons_self]
      cases graph.executeNode attempt first values none with
      | error => rfl
      | ok output =>
        refine ih (filed.put first output) later fun name next => ?_
        rw [ordered.executeNode_put (known name (later next)) (ordered.apart member here (later next))]
        simp_all
  rw [runLayer, passed]
  exact loop layer values (List.Subset.refl layer) fun _ _ => rfl

end

theorem runNodes_append (first second : List String) (values : Values Number) :
    graph.runNodes attempt (first ++ second) values =
      graph.runNodes attempt first values >>= graph.runNodes attempt second :=
  foldlM_append ..

/-- The layers one after another give what the nodes give in their order. -/
theorem Ordered.runLayers_eq (ordered : graph.Ordered edges)
    (uninterrupted : ∀ point, attempt.check point = none) (values : Values Number) :
    graph.layers.foldlM (graph.runLayer attempt) values =
      graph.runNodes attempt graph.topology values := by
  have loop : ∀ (layers : List (List String)) (values : Values Number), layers ⊆ graph.layers →
      layers.foldlM (graph.runLayer attempt) values =
        graph.runNodes attempt layers.flatten values := by
    intro layers
    induction layers with
    | nil =>
      intro values _
      rfl
    | cons layer rest ih =>
      intro values inside
      obtain ⟨here, later⟩ := cons_subset.mp inside
      have passed : checkContext attempt (.layer layer) = .ok () := by
        rw [checkContext, uninterrupted]
      rw [foldlM_cons, flatten_cons, runNodes_append, ordered.runLayer_eq here passed]
      simp_all
  rw [ordered.topology]
  simp_all

/-! ## Streams -/

theorem ended_streamNode (runId : String) (values : Values Number) (name : String) :
    (graph.streamNode attempt runId values name).ended =
      (do
        let output ← graph.executeNode attempt name values none
        return values.put name output) := by
  simp only [streamNode, Generator.ended_bind, Generator.ended_yield, Generator.ended_attempt,
    Generator.ended_pure]
  rfl

theorem ended_streamLayer (runId : String) (values : Values Number) (layer : List String) :
    (graph.streamLayer attempt runId values layer).ended = graph.runLayer attempt values layer := by
  have announced : layer.foldlM (fun _ _ => (.ok () : Except (AiError E) Unit)) () = .ok () := by
    induction layer with
    | nil => rfl
    | cons name rest ih => exact ih
  simp only [streamLayer, Generator.ended_bind, Generator.ended_yield, Generator.ended_attempt,
    Generator.ended_pure, Generator.ended_foldlM, announced]
  rfl

/-- All of a stream but its last event. -/
def streamBody (graph : CompiledGraph Node) (attempt : Attempt Node Number E) (runId : String)
    (input : Json Number) (mode : WorkflowExecutionMode) : WorkflowEventStream Number E (Json Number) := do
  Generator.attempt (checkContext attempt .started)
  Generator.yield (.runStarted runId mode)
  let values ← match mode with
    | .sequential => graph.topology.foldlM (graph.streamNode attempt runId) (started input)
    | .parallelLayers => graph.layers.foldlM (graph.streamLayer attempt runId) (started input)
  Generator.attempt (graph.finish values)

theorem stream_eq (graph : CompiledGraph Node) (attempt : Attempt Node Number E) (runId : String)
    (input : Json Number) (mode : WorkflowExecutionMode) :
    graph.stream attempt runId input mode =
      graph.streamBody attempt runId input mode >>= fun output =>
        Generator.yield (.runCompleted runId output) := by
  cases mode with
  | sequential | parallelLayers => simp only [streamBody, stream, Generator.bind_assoc]

theorem ended_streamBody (graph : CompiledGraph Node) (attempt : Attempt Node Number E)
    (runId : String) (input : Json Number) (mode : WorkflowExecutionMode) :
    (graph.streamBody attempt runId input mode).ended = graph.invokeWithMode attempt input mode := by
  cases mode with
  | sequential =>
    simp only [streamBody, Generator.ended_bind, Generator.ended_yield, Generator.ended_attempt,
      Generator.ended_foldlM, ended_streamNode]
    rfl
  | parallelLayers =>
    simp only [streamBody, Generator.ended_bind, Generator.ended_yield, Generator.ended_attempt,
      Generator.ended_foldlM, ended_streamLayer]
    rfl

/-- A stream ends with what the invocation returns. -/
theorem terminal_stream (runId : String) (input : Json Number) (mode : WorkflowExecutionMode) :
    terminal (graph.stream attempt runId input mode) =
      (graph.invokeWithMode attempt input mode).map some := by
  have split := graph.stream_eq attempt runId input mode
  have ended := graph.ended_streamBody attempt runId input mode
  have last : (graph.stream attempt runId input mode).ended =
      (graph.streamBody attempt runId input mode).ended.map fun _ => () := by
    rw [split, Generator.ended_bind]
    rfl
  rw [terminal, last, ← ended]
  cases reached : (graph.streamBody attempt runId input mode).ended with
  | error => rfl
  | ok =>
    rw [split]
    simp only [Except.map, Generator.getLast?_bind_yield _ _ reached]

end CompiledGraph

/-! ## Agreement -/

/-- Nodes that are functions of their input, in a context that is never over. -/
def functional : Attempt (Json Number → Except E (Json Number)) Number E where
  check _ := none
  invoke _ node input := node input

/-- In either mode, invoked or streamed, a workflow of functional nodes gives the same output or
the same first error. -/
theorem modes_agree {builder : GraphBuilder (Json Number → Except E (Json Number))}
    {graph : CompiledGraph (Json Number → Except E (Json Number))}
    (compiled : builder.compile = .ok graph) (runId : String) (input : Json Number)
    (mode : WorkflowExecutionMode) :
    graph.invokeWithMode functional input mode = graph.invoke functional input ∧
      terminal (graph.stream functional runId input mode) =
        (graph.invoke functional input).map some := by
  have ordered := GraphBuilder.compile_ordered compiled
  have agree : graph.invokeWithMode functional input mode = graph.invoke functional input := by
    cases mode with
    | sequential => rfl
    | parallelLayers =>
      have layers (values : Values Number) : graph.layers.foldlM (graph.runLayer functional) values =
          graph.runNodes functional graph.topology values := ordered.runLayers_eq (fun _ => rfl) values
      simp only [CompiledGraph.invoke, CompiledGraph.invokeWithMode, layers]
  rw [CompiledGraph.terminal_stream, agree]
  exact ⟨rfl, rfl⟩

namespace Diamond

/-- Two branches that wrap their input, and a node that joins them. -/
def wrap (key : String) (input : Json Nat) : Except String (Json Nat) := .ok (.object [(key, input)])

def builder : GraphBuilder (Json Nat → Except String (Json Nat)) where
  nodes := Entries.put (Entries.put (Entries.put (.empty _) "left" (wrap "left")) "right" (wrap "right"))
    "join" .ok
  edges := [(START, "left"), (START, "right"), ("left", "join"), ("right", "join"), ("join", END)]
  named := by decide
  distinct := by decide

theorem compiles : ∃ graph, builder.compile = .ok graph := by
  have succeeds : builder.compile.isOk = true := by decide +kernel
  cases compiled : builder.compile with
  | error => contradiction
  | ok graph => exact ⟨graph, rfl⟩

end Diamond

theorem modes_agree_diamond :
    ∃ graph, Diamond.builder.compile = .ok graph ∧
      terminal (graph.stream functional "run" (.string "input") .parallelLayers) =
        .ok (some (.array [.object [("left", .string "input")], .object [("right", .string "input")]])) := by
  obtain ⟨graph, compiled⟩ := Diamond.compiles
  have invoked : Diamond.builder.compile.map (fun graph => graph.invoke functional (.string "input")) =
      .ok (.ok (.array [.object [("left", .string "input")], .object [("right", .string "input")]])) := by
    decide +kernel
  rw [compiled, Except.map, Except.ok.injEq] at invoked
  refine ⟨graph, compiled, ?_⟩
  rw [(modes_agree compiled "run" (.string "input") .parallelLayers).2, invoked]
  rfl

end Roze.Ai
