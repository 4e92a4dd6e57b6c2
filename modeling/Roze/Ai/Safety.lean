import Roze.Ai.Modes
import Roze.Ai.Runner

/-!
# Compiled workflows do not go wrong

Compiling accepts exactly the builders whose edges are well formed, whose nodes have no cycle, and
whose nodes and output are reached from the input. A node of a compiled graph comes after all its
sources, so its inputs are there when it is executed, in every mode and from every checkpoint that a
run of the graph can have stored. What the nodes answer plays no part in it.
-/

namespace Roze.Ai

open Roze.Library List

variable {Node Number E : Type}

/-! ## Inputs -/

/-- The error of a graph that does not fit its values. -/
def Misfit : AiError E → Prop
  | .invalidWorkflow _ => True
  | _ => False

/-- The sources of a name have values. -/
def Supplied (edges : Edges) (values : Values Number) (name : String) : Prop :=
  ∀ source, (source, name) ∈ edges → (values.get? source).isSome

/-- The input and some nodes have values. -/
def Stocked (values : Values Number) (names : List String) : Prop :=
  ∀ name, name = START ∨ name ∈ names → (values.get? name).isSome

theorem stocked_started (input : Json Number) : Stocked (CompiledGraph.started input) [] := by
  rintro _ (rfl | none)
  · rfl
  · cases none

theorem Stocked.put {values : Values Number} {names : List String} (stocked : Stocked values names)
    (name : String) (value : Json Number) : Stocked (values.put name value) (names ++ [name]) := by
  intro other place
  rw [Entries.get?_put]
  split
  · rfl
  · rename_i different
    refine stocked other (place.imp_right fun member => ?_)
    grind

theorem mapM_sourceValue {name : String} {values : Values Number} {listed : List String}
    (present : ∀ source ∈ listed, (values.get? source).isSome) :
    ∃ inputs, listed.mapM (sourceValue name values) = .ok inputs ∧ inputs.length = listed.length := by
  induction listed with
  | nil => exact ⟨[], rfl, rfl⟩
  | cons source rest ih =>
    obtain ⟨inputs, gathered, same⟩ := ih fun source member =>
      present source (mem_cons_of_mem _ member)
    obtain ⟨value, found⟩ := Option.isSome_iff_exists.mp (present source mem_cons_self)
    refine ⟨value :: inputs, ?_, congrArg (· + 1) same⟩
    rw [mapM_cons, gathered, sourceValue, found]
    rfl

namespace CompiledGraph

variable {graph : CompiledGraph Node} {edges : Edges} {attempt : Attempt Node Number E}

variable {name : String} {values : Values Number}

theorem Ordered.collectInputs_ok (ordered : graph.Ordered edges)
    (place : name ∈ graph.nodes.keys ∨ name = END) (supplied : Supplied edges values name) :
    ∃ input, collectInputs name graph.incoming values = .ok input := by
  obtain ⟨found, some⟩ := ordered.incoming name place
  obtain ⟨inputs, gathered, same⟩ : ∃ inputs, (sources edges name).mapM (sourceValue name values) =
      .ok inputs ∧ inputs.length = (sources edges name).length :=
    mapM_sourceValue fun source member => supplied source (mem_sources.mp member)
  have inhabited : inputs ≠ [] := by grind
  simp only [collectInputs, found, gathered]
  cases inputs with
  | nil => exact absurd rfl inhabited
  | cons first others =>
    cases others with
    | nil => exact ⟨first, rfl⟩
    | cons second rest => exact ⟨.array (first :: second :: rest), rfl⟩

theorem checkContext_ensures (point : CheckPoint) :
    Ensures Misfit (fun _ => True) (checkContext attempt point) := by
  rw [checkContext]
  cases attempt.check point with
  | none => trivial
  | some stopped =>
    cases stopped with
    | cancelled | expired => exact id

theorem Ordered.prepare_ensures (ordered : graph.Ordered edges) (known : name ∈ graph.nodes.keys)
    (supplied : Supplied edges values name) (inputOverride : Option (Json Number)) :
    Ensures Misfit (fun _ => True) (graph.prepare attempt name values inputOverride) := by
  obtain ⟨_, found⟩ := Option.isSome_iff_exists.mp (Entries.mem_keys_iff.mp known)
  obtain ⟨_, collected⟩ := ordered.collectInputs_ok (.inl known) supplied
  refine (checkContext_ensures _).bind fun _ _ => ?_
  cases inputOverride with
  | some =>
    simp only [found]
    trivial
  | none =>
    simp only [found, collected]
    trivial

theorem Ordered.executeNode_ensures (ordered : graph.Ordered edges)
    (known : name ∈ graph.nodes.keys) (supplied : Supplied edges values name) :
    Ensures Misfit (fun _ => True) (graph.executeNode attempt name values none) := by
  refine (ordered.prepare_ensures known supplied none).bind fun prepared _ => ?_
  rw [invokeNode]
  cases attempt.invoke name prepared.1 prepared.2 with
  | error => exact id
  | ok => exact (checkContext_ensures _).bind fun _ _ => trivial

/-! ## Invocations -/

section

variable (ordered : graph.Ordered edges)
include ordered

/-- The sources of a node are the input and nodes before it. -/
theorem Ordered.before {front back : List String} (split : graph.topology = front ++ name :: back)
    {source : String} (edge : (source, name) ∈ edges) : source = START ∨ source ∈ front := by
  rcases ordered.known _ edge with start | known
  · exact .inl start
  right
  have listed : name ∈ graph.layers.flatten := by
    rw [← ordered.topology, split]
    simp
  obtain ⟨layer, member, inside⟩ := mem_flatten.mp listed
  obtain ⟨earlier, later, parts⟩ := append_of_mem member
  have placed : source ∈ earlier.flatten :=
    ordered.layering.later earlier layer later parts name inside source known edge
  have distinct := topology_nodup ordered
  have whole : front ++ name :: back = earlier.flatten ++ (layer ++ later.flatten) := by
    rw [← split, ordered.topology, parts, flatten_append, flatten_cons]
  rw [split, whole] at distinct
  have outside : name ∉ earlier.flatten := fun early =>
    (nodup_append'.mp distinct).2.2 early (mem_append_left _ inside)
  rcases append_eq_append_iff.mp whole with ⟨rest, same, left⟩ | ⟨rest, same, _⟩
  · cases rest with
    | nil | cons => simp_all
  · simp_all

theorem Ordered.runNodes_ensures (input : Json Number) :
    Ensures Misfit (fun values => Stocked values graph.topology)
      (graph.runNodes attempt graph.topology (started input)) := by
  refine ensures_foldlM (fun done values => Stocked values done)
    (fun front name back split values stocked => ?_) (stocked_started input)
  have known : name ∈ graph.nodes.keys := by
    rw [← mem_topology ordered, split]
    simp
  have supplied : Supplied edges values name := fun source edge =>
    stocked source (ordered.before split edge)
  exact (ordered.executeNode_ensures known supplied).bind fun output _ => stocked.put name output

/-- The nodes of a layer find their inputs, as the layers before it have been filed. -/
theorem Ordered.runLayer_ensures {front back : List (List String)} {layer : List String}
    (split : graph.layers = front ++ layer :: back) (stocked : Stocked values front.flatten) :
    Ensures Misfit (fun values => Stocked values (front ++ [layer]).flatten)
      (graph.runLayer attempt values layer) := by
  have executed (name : String) (inside : name ∈ layer) :
      Ensures Misfit (fun _ => True) (graph.executeNode attempt name values none) := by
    have member : layer ∈ graph.layers := split ▸ mem_append_right _ mem_cons_self
    have known : name ∈ graph.nodes.keys :=
      ordered.layering.partition.mem_iff.mp (mem_flatten.mpr ⟨layer, member, inside⟩)
    refine ordered.executeNode_ensures known fun source edge => stocked source ?_
    exact (ordered.known _ edge).imp_right fun inside' =>
      ordered.layering.later front layer back split name inside source inside' edge
  refine (checkContext_ensures _).bind fun _ _ => ?_
  refine Ensures.mono (ensures_foldlM
    (fun done filed => Stocked filed (front.flatten ++ done.map Prod.fst))
    (fun done output rest parts filed stocked => ?_) (by simpa using stocked)) fun filed stocked => ?_
  · have listed : output ∈ layer.map (fun name => (name, graph.executeNode attempt name values none)) :=
      parts ▸ mem_append_right _ mem_cons_self
    obtain ⟨name, inside, rfl⟩ := mem_map.mp listed
    refine (executed name inside).bind fun value _ => ?_
    have next := stocked.put name value
    rw [append_assoc] at next
    rw [map_append]
    exact next
  · simpa [Function.comp_def] using stocked

theorem Ordered.finish_ensures (stocked : Stocked values graph.topology) :
    Ensures Misfit (fun _ => True) (graph.finish values : Except (AiError E) _) := by
  obtain ⟨output, collected⟩ : ∃ output, collectInputs END graph.incoming values = .ok output := by
    refine ordered.collectInputs_ok (.inr rfl) fun source edge => stocked source ?_
    exact (ordered.known _ edge).imp_right (mem_topology ordered).mpr
  rw [finish, collected]
  trivial

theorem Ordered.invoke_ensures (input : Json Number) (mode : WorkflowExecutionMode) :
    Ensures Misfit (fun _ => True) (graph.invokeWithMode attempt input mode) := by
  refine (checkContext_ensures _).bind fun _ _ => ?_
  cases mode with
  | sequential => exact (ordered.runNodes_ensures input).bind fun _ stocked => ordered.finish_ensures stocked
  | parallelLayers =>
    have layers : Ensures Misfit (fun values => Stocked values graph.layers.flatten)
        (graph.layers.foldlM (graph.runLayer attempt) (started input)) :=
      ensures_foldlM (fun done values => Stocked values done.flatten)
        (fun front layer back split values stocked => ordered.runLayer_ensures split stocked)
        (stocked_started input)
    rw [← ordered.topology] at layers
    exact layers.bind fun _ stocked => ordered.finish_ensures stocked

end

end CompiledGraph

/-! ## Runs -/

/-- The checkpoint has the values of the nodes before its position. -/
def Filed (graph : CompiledGraph Node) (checkpoint : WorkflowCheckpoint Number) : Prop :=
  Stocked checkpoint.values (graph.topology.take checkpoint.nextNodeIndex)

namespace WorkflowRunner

variable {runner : WorkflowRunner Node} {edges : Edges} {attempt : StoredAttempt Node Number E}

theorem filed_kept (resumeInput : Option (Json Number)) :
    runner.Kept attempt resumeInput (Filed runner.graph) where
  marked _ _ filed := filed
  stepped checkpoint name rest _ _ output filed position _ _ _ := by
    have next : runner.graph.topology.take (checkpoint.nextNodeIndex + 1) =
        runner.graph.topology.take checkpoint.nextNodeIndex ++ [name] := by
      rw [take_add, position]
      rfl
    have put := filed.put name output
    rw [← next] at put
    exact put

/-- From a checkpoint that has its values a call does not find the graph unfit. -/
theorem Course.fits (ordered : runner.graph.Ordered edges) {approvedNode : Option String}
    {served : Served Number E} (course : runner.Course attempt (Filed runner.graph) approvedNode served)
    (reason : InvalidWorkflow) : served.answer ≠ .error (.invalidWorkflow reason) := by
  intro answered
  obtain ⟨checkpoint, filed, ⟨position, finished⟩ | ⟨name, rest, inputOverride, position, prepared⟩⟩ :=
    course.rejected reason answered
  · have all : runner.graph.topology.take checkpoint.nextNodeIndex = runner.graph.topology :=
      take_of_length_le (drop_eq_nil_iff.mp position)
    rw [Filed, all] at filed
    have fits : Ensures Misfit _ (runner.graph.finish checkpoint.values : Except (AiError E) _) :=
      ordered.finish_ensures filed
    rw [finished] at fits
    exact fits trivial
  · have split : runner.graph.topology =
        runner.graph.topology.take checkpoint.nextNodeIndex ++ name :: rest := by
      rw [← position, take_append_drop]
    have known : name ∈ runner.graph.nodes.keys := by
      rw [← CompiledGraph.mem_topology ordered, split]
      simp
    have fits : Ensures Misfit _
        (runner.graph.prepare attempt.toAttempt name checkpoint.values inputOverride) :=
      ordered.prepare_ensures known (fun source edge => filed source (ordered.before split edge))
        inputOverride
    rw [prepared] at fits
    exact fits trivial

end WorkflowRunner

open WorkflowRunner

/-- The checkpoints that runners of a graph save, each from the start of a run or from one that was
saved before. -/
inductive Saved (E : Type) (graph : CompiledGraph Node) : WorkflowCheckpoint Number → Prop
  | start {runner : WorkflowRunner Node} (own : runner.graph = graph)
      {attempt : StoredAttempt Node Number E} {scope : Scope} {runId : String} {input : Json Number}
      {checkpoint : WorkflowCheckpoint Number}
      (member : .save checkpoint ∈ (runner.start attempt scope runId input).writes) :
      Saved E graph checkpoint
  | resume {runner : WorkflowRunner Node} (own : runner.graph = graph)
      {attempt : StoredAttempt Node Number E} {scope : Scope} {runId : String}
      {resumeInput : Option (Json Number)} {loaded checkpoint : WorkflowCheckpoint Number}
      (earlier : Saved E graph loaded)
      (member : .save checkpoint ∈ (runner.resume attempt scope runId resumeInput (some loaded)).writes) :
      Saved E graph checkpoint

theorem start_course_filed (runner : WorkflowRunner Node) (attempt : StoredAttempt Node Number E)
    (scope : Scope) (runId : String) (input : Json Number) :
    runner.Course attempt (Filed runner.graph) none (runner.start attempt scope runId input) :=
  start_course (filed_kept none) (stocked_started input)

/-- Every checkpoint that is saved has its values.

Proof: by induction on how it came to be saved. -/
theorem Saved.filed {graph : CompiledGraph Node} {checkpoint : WorkflowCheckpoint Number}
    (saved : Saved E graph checkpoint) : Filed graph checkpoint := by
  induction saved with
  | start own member =>
    subst own
    exact (start_course_filed ..).saved _ member
  | resume own earlier member ih =>
    subst own
    refine (resume_course (filed_kept _) ?_).saved _ member
    simp_all

/-! ## Compilation -/

/-- A builder compiles exactly when its edges are well formed, its nodes have no cycle, and every
node and the output are reached from the input. The layers of what it compiles to have every node
once and after all its predecessors, and neither an invocation nor a stream nor a run, from its
start or from a saved checkpoint, finds the graph unfit. -/
theorem compile_sound_and_complete (builder : GraphBuilder Node) :
    ((∃ graph, builder.compile = .ok graph) ↔
      WellFormed builder.nodes.keys builder.edges ∧
        Acyclic builder.nodes.keys.toFinset builder.edges ∧
        (∀ name ∈ builder.nodes.keys, Relation.ReflTransGen (Edge builder.edges) START name) ∧
        Relation.ReflTransGen (Edge builder.edges) START END) ∧
    ∀ graph, builder.compile = .ok graph →
      Layering builder.nodes.keys builder.edges graph.layers ∧
      ∀ reason,
        (∀ (attempt : Attempt Node Number E) input mode,
          graph.invokeWithMode attempt input mode ≠ .error (.invalidWorkflow reason)) ∧
        (∀ (attempt : Attempt Node Number E) runId input mode,
          (graph.stream attempt runId input mode).ended ≠ .error (.invalidWorkflow reason)) ∧
        ∀ runner : WorkflowRunner Node, runner.graph = graph →
          ∀ (attempt : StoredAttempt Node Number E) scope runId,
            (∀ input, (runner.start attempt scope runId input).answer ≠
              .error (.invalidWorkflow reason)) ∧
            ∀ resumeInput stored, (∀ checkpoint, stored = some checkpoint → Saved E graph checkpoint) →
              (runner.resume attempt scope runId resumeInput stored).answer ≠
                .error (.invalidWorkflow reason) := by
  constructor
  · rw [GraphBuilder.exists_compile_iff]
    exact ⟨fun sound => ⟨sound.formed, sound.acyclic, sound.reached, sound.ends⟩,
      fun ⟨formed, acyclic, reached, ends⟩ => ⟨formed, acyclic, reached, ends⟩⟩
  · intro graph compiled
    have ordered := GraphBuilder.compile_ordered compiled
    have nodes : graph.nodes = builder.nodes := (GraphBuilder.compile_ok_iff.mp compiled).2.2.2.1
    have invoked (attempt : Attempt Node Number E) (input : Json Number) (mode : WorkflowExecutionMode)
        (reason : InvalidWorkflow) :
        graph.invokeWithMode attempt input mode ≠ .error (.invalidWorkflow reason) := by
      intro failed
      have fits : Ensures Misfit _ (graph.invokeWithMode attempt input mode) :=
        ordered.invoke_ensures input mode
      rw [failed] at fits
      exact fits trivial
    refine ⟨nodes ▸ ordered.layering, fun reason => ⟨fun attempt input mode =>
      invoked attempt input mode reason, fun attempt runId input mode failed => ?_, ?_⟩⟩
    · have ended : terminal (graph.stream attempt runId input mode) =
          (graph.invokeWithMode attempt input mode).map some :=
        CompiledGraph.terminal_stream runId input mode
      rw [terminal, failed] at ended
      cases result : graph.invokeWithMode attempt input mode with
      | error =>
        rw [result] at ended
        cases ended
        exact invoked attempt input mode reason result
      | ok =>
        rw [result] at ended
        cases ended
    · rintro runner rfl attempt scope runId
      refine ⟨fun input => (start_course_filed runner attempt scope runId input).fits ordered reason, ?_⟩
      intro resumeInput stored saved
      exact (resume_course (filed_kept resumeInput)
        fun checkpoint same => (saved checkpoint same).filed).fits ordered reason

/-- The builder of the two branches compiles, and its start is not refused as unfit. -/
theorem compile_sound_and_complete_diamond :
    ∃ graph, Diamond.builder.compile = .ok graph ∧
      Acyclic Diamond.builder.nodes.keys.toFinset Diamond.builder.edges ∧
      Layering Diamond.builder.nodes.keys Diamond.builder.edges graph.layers ∧
      ∀ (attempt : StoredAttempt _ Nat String) scope runId input reason,
        ((⟨graph, "v1", .empty id⟩ : WorkflowRunner _).start attempt scope runId input).answer ≠
          .error (.invalidWorkflow reason) := by
  obtain ⟨graph, compiled⟩ := Diamond.compiles
  have general := @compile_sound_and_complete _ Nat String Diamond.builder
  obtain ⟨layering, fits⟩ := general.2 graph compiled
  exact ⟨graph, compiled, (general.1.mp ⟨graph, compiled⟩).2.1, layering,
    fun attempt scope runId input reason =>
      ((fits reason).2.2 ⟨graph, "v1", .empty id⟩ rfl attempt scope runId).1 input⟩

end Roze.Ai
