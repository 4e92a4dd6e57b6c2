import Roze.Ai.Execution

/-!
# Runs with checkpoints

A runner stores a checkpoint when a run starts, after each node, and where it stops before a node
that needs approval. A later call resumes the run from what is stored. A call can fail wherever it
looks at its context, invokes a node or uses the store; the store may have taken a write that it
reports as failed.
-/

namespace Roze.Ai

open Roze.Library

/-- Whom a context acts for. -/
structure Scope where
  tenant : Option String
  subject : Option String
deriving DecidableEq

structure WorkflowCheckpoint (Number : Type) where
  version : Nat
  runId : String
  graphRevision : String
  scope : Scope
  nextNodeIndex : Nat
  values : Values Number
  interruptedBefore : Option String

/-- What became of a write: it was made, it was not, or it was made and reported as failed. -/
inductive WriteOutcome (E : Type) where
  | done
  | lost (error : E)
  | unconfirmed (error : E)
deriving DecidableEq

/-- Where a call saves its checkpoint. -/
inductive SavePoint where
  | created
  | interrupted (name : String)
  | executed (name : String)
deriving DecidableEq

/-- How the context, the nodes and the store behave during one call. -/
structure StoredAttempt (Node Number E : Type) extends Attempt Node Number E where
  load : Option E
  save : SavePoint → WriteOutcome E
  delete : WriteOutcome E

/-- The writes of a `CheckpointStore`. -/
inductive StoreWrite (Number : Type) where
  | save (checkpoint : WorkflowCheckpoint Number)
  | delete (runId : String)

abbrev CheckpointStore (Number : Type) := Entries String (WorkflowCheckpoint Number)

def StoreWrite.apply {Number : Type} (store : CheckpointStore Number) :
    StoreWrite Number → CheckpointStore Number
  | .save checkpoint => store.put checkpoint.runId checkpoint
  | .delete runId => store.erase runId

/-- What was written, and the error that was reported. -/
def WriteOutcome.result {Number E : Type} (outcome : WriteOutcome E) (write : StoreWrite Number) :
    List (StoreWrite Number) × Option E :=
  match outcome with
  | .done => ([write], none)
  | .lost error => ([], some error)
  | .unconfirmed error => ([write], some error)

structure WorkflowInterrupt where
  runId : String
  beforeNode : String
  graphRevision : String
deriving DecidableEq

inductive WorkflowRunResult (Number : Type) where
  | completed (runId : String) (output : Json Number)
  | interrupted (interrupt : WorkflowInterrupt)
deriving DecidableEq

/-- What a call did: its writes, the nodes that it invoked, and its answer. -/
structure Served (Number E : Type) where
  writes : List (StoreWrite Number)
  executed : List String
  answer : Except (AiError E) (WorkflowRunResult Number)

namespace Served

variable {Number E : Type}

def failed (error : AiError E) : Served Number E := ⟨[], [], .error error⟩

/-- Go on after a write that was confirmed. -/
def andThen (written : List (StoreWrite Number) × Option E) (rest : Served Number E) :
    Served Number E :=
  match written.2 with
  | some error => ⟨written.1, [], .error (.raised error)⟩
  | none => ⟨written.1 ++ rest.writes, rest.executed, rest.answer⟩

/-- What follows the invocation of a node. -/
def after (name : String) (rest : Served Number E) : Served Number E :=
  { rest with executed := name :: rest.executed }

end Served

structure WorkflowRunner (Node : Type) where
  graph : CompiledGraph Node
  graphRevision : String
  interruptBefore : NameSet

namespace WorkflowRunner

variable {Node Number E : Type}

def new (graph : CompiledGraph Node) (graphRevision : String) (interruptBefore : List String) :
    Except InvalidWorkflow (WorkflowRunner Node) :=
  if (trim graphRevision).isEmpty then .error .emptyRevision
  else
    let names := KeyedMap.collect id interruptBefore
    match names.values.find? (fun name => (graph.nodes.get? name).isNone) with
    | some name => .error (.missingInterrupt name)
    | none => .ok ⟨graph, graphRevision, names⟩

variable (runner : WorkflowRunner Node) (attempt : StoredAttempt Node Number E)

/-- The loop of `drive` over the nodes that are left. The approved node is the one that the run had
stopped before; it takes the input of the resumption, if there is one. -/
def driveFrom (approvedNode : Option String) :
    List String → WorkflowCheckpoint Number → Option (Json Number) → Served Number E
  | [], checkpoint, _ =>
      match runner.graph.finish checkpoint.values with
      | .error error => .failed error
      | .ok output =>
          .andThen (attempt.delete.result (.delete checkpoint.runId))
            ⟨[], [], .ok (.completed checkpoint.runId output)⟩
  | name :: rest, checkpoint, resumeInput =>
      match checkContext attempt.toAttempt (.turn name) with
      | .error error => .failed error
      | .ok () =>
          if name ∈ runner.interruptBefore.values ∧ approvedNode ≠ some name then
            .andThen ((attempt.save (.interrupted name)).result
                (.save { checkpoint with interruptedBefore := some name }))
              ⟨[], [], .ok (.interrupted ⟨checkpoint.runId, name, runner.graphRevision⟩)⟩
          else
            let inputOverride := if approvedNode = some name then resumeInput else none
            let resumeInput := if approvedNode = some name then none else resumeInput
            match runner.graph.prepare attempt.toAttempt name checkpoint.values inputOverride with
            | .error error => .failed error
            | .ok prepared =>
                .after name (match invokeNode attempt.toAttempt name prepared with
                  | .error error => .failed error
                  | .ok output =>
                      let checkpoint := { checkpoint with
                        values := checkpoint.values.put name output
                        nextNodeIndex := checkpoint.nextNodeIndex + 1
                        interruptedBefore := none }
                      .andThen ((attempt.save (.executed name)).result (.save checkpoint))
                        (driveFrom approvedNode rest checkpoint resumeInput))

def drive (checkpoint : WorkflowCheckpoint Number) (resumeInput : Option (Json Number)) :
    Served Number E :=
  runner.driveFrom attempt checkpoint.interruptedBefore
    (runner.graph.topology.drop checkpoint.nextNodeIndex)
    { checkpoint with interruptedBefore := none } resumeInput

/-- The run id is drawn by the call. -/
def start (scope : Scope) (runId : String) (input : Json Number) : Served Number E :=
  match checkContext attempt.toAttempt .started with
  | .error error => .failed error
  | .ok () =>
      let checkpoint : WorkflowCheckpoint Number :=
        { version := 1, runId, graphRevision := runner.graphRevision, scope, nextNodeIndex := 0,
          values := CompiledGraph.started input, interruptedBefore := none }
      .andThen ((attempt.save .created).result (.save checkpoint)) (runner.drive attempt checkpoint none)

/-- Resume from what is stored for the run. -/
def resume (scope : Scope) (runId : String) (resumeInput : Option (Json Number))
    (stored : Option (WorkflowCheckpoint Number)) : Served Number E :=
  match checkContext attempt.toAttempt .started with
  | .error error => .failed error
  | .ok () =>
      match attempt.load, stored with
      | some error, _ => .failed (.raised error)
      | none, none => .failed (.checkpointNotFound runId)
      | none, some checkpoint =>
          if checkpoint.version ≠ 1 then .failed (.checkpointVersion checkpoint.version)
          else if checkpoint.graphRevision ≠ runner.graphRevision then
            .failed (.checkpointRevisionMismatch runner.graphRevision checkpoint.graphRevision)
          else if checkpoint.scope ≠ scope then .failed .checkpointScopeMismatch
          else runner.drive attempt checkpoint resumeInput

end WorkflowRunner

/-! ## What a call can do -/

namespace Served

variable {Number E : Type}

/-- A write is the first one or one of the rest. -/
theorem mem_andThen_writes {written : List (StoreWrite Number) × Option E} {rest : Served Number E}
    {write : StoreWrite Number} (member : write ∈ (andThen written rest).writes) :
    write ∈ written.1 ∨ (written.2 = none ∧ write ∈ rest.writes) := by
  obtain ⟨_, error⟩ := written
  cases error with
  | some => exact .inl member
  | none => exact (List.mem_append.mp member).imp_right fun later => ⟨rfl, later⟩

end Served

theorem WriteOutcome.mem_result {Number E : Type} {outcome : WriteOutcome E}
    {write other : StoreWrite Number} (member : other ∈ (outcome.result write).1) : other = write := by
  cases outcome with
  | lost => cases member
  | done | unconfirmed => exact List.mem_singleton.mp member

namespace WorkflowRunner

variable {Node Number E : Type} {runner : WorkflowRunner Node} {attempt : StoredAttempt Node Number E}

/-- What a call can do from a checkpoint with a property that the execution of a node keeps. -/
structure Course (runner : WorkflowRunner Node) (attempt : StoredAttempt Node Number E)
    (property : WorkflowCheckpoint Number → Prop) (approvedNode : Option String)
    (served : Served Number E) : Prop where
  saved : ∀ checkpoint, .save checkpoint ∈ served.writes → property checkpoint
  deleted : ∀ runId, .delete runId ∈ served.writes → ∃ checkpoint, property checkpoint ∧ checkpoint.runId = runId
  executed : ∀ name ∈ served.executed, name ∈ runner.interruptBefore.values → approvedNode = some name
  completed : ∀ runId output, served.answer = .ok (.completed runId output) →
    ∃ checkpoint, property checkpoint ∧ runner.graph.topology.drop checkpoint.nextNodeIndex = [] ∧
      runner.graph.finish checkpoint.values = (.ok output : Except (AiError E) _)
  rejected : ∀ reason, served.answer = .error (.invalidWorkflow reason) →
    ∃ checkpoint, property checkpoint ∧
      ((runner.graph.topology.drop checkpoint.nextNodeIndex = [] ∧
          runner.graph.finish checkpoint.values = (.error (.invalidWorkflow reason) : Except (AiError E) _)) ∨
        ∃ name rest inputOverride, runner.graph.topology.drop checkpoint.nextNodeIndex = name :: rest ∧
          runner.graph.prepare attempt.toAttempt name checkpoint.values inputOverride =
            .error (.invalidWorkflow reason))

/-- A property of checkpoints that marking a stop and executing the next node keep. -/
structure Kept (runner : WorkflowRunner Node) (attempt : StoredAttempt Node Number E)
    (resumeInput : Option (Json Number)) (property : WorkflowCheckpoint Number → Prop) : Prop where
  marked : ∀ checkpoint mark, property checkpoint →
    property { checkpoint with interruptedBefore := mark }
  stepped : ∀ checkpoint name rest inputOverride prepared output, property checkpoint →
    runner.graph.topology.drop checkpoint.nextNodeIndex = name :: rest →
    inputOverride = none ∨ inputOverride = resumeInput →
    runner.graph.prepare attempt.toAttempt name checkpoint.values inputOverride = .ok prepared →
    invokeNode attempt.toAttempt name prepared = .ok output →
    property { checkpoint with
      values := checkpoint.values.put name output
      nextNodeIndex := checkpoint.nextNodeIndex + 1
      interruptedBefore := none }

variable {property : WorkflowCheckpoint Number → Prop} {approvedNode : Option String}
variable {error : AiError E}

/-- A failed run wrote nothing. -/
theorem Course.failed (other : ∀ reason, error ≠ .invalidWorkflow reason) :
    Course runner attempt property approvedNode (.failed error) where
  saved _ member := nomatch member
  deleted _ member := nomatch member
  executed _ member := nomatch member
  completed _ _ same := nomatch same
  rejected reason same := absurd (Except.error.inj same) (other reason)

/-- A write and what follows it. -/
theorem Course.andThen {outcome : WriteOutcome E} {write : StoreWrite Number}
    {rest : Served Number E}
    (saved : ∀ checkpoint, write = .save checkpoint → property checkpoint)
    (deleted : ∀ runId, write = .delete runId → ∃ checkpoint, property checkpoint ∧ checkpoint.runId = runId)
    (course : Course runner attempt property approvedNode rest) :
    Course runner attempt property approvedNode (.andThen (outcome.result write) rest) := by
  have parts : (Served.andThen (outcome.result write) rest).executed ⊆ rest.executed ∧
      ((Served.andThen (outcome.result write) rest).answer = rest.answer ∨
        ∃ error, (Served.andThen (outcome.result write) rest).answer = .error (.raised error)) := by
    cases outcome with
    | done => exact ⟨List.Subset.refl _, .inl rfl⟩
    | lost error | unconfirmed error => exact ⟨List.nil_subset _, .inr ⟨error, rfl⟩⟩
  obtain ⟨executed, answer⟩ := parts
  refine ⟨fun checkpoint member => ?_, fun runId member => ?_,
    fun name member => course.executed name (executed member), fun runId output same => ?_,
    fun reason same => ?_⟩
  · rcases Served.mem_andThen_writes member with here | ⟨_, later⟩
    · exact saved checkpoint (WriteOutcome.mem_result here).symm
    · exact course.saved checkpoint later
  · rcases Served.mem_andThen_writes member with here | ⟨_, later⟩
    · exact deleted runId (WriteOutcome.mem_result here).symm
    · exact course.deleted runId later
  · rcases answer with kept | ⟨error, raised⟩
    · exact course.completed runId output (kept ▸ same)
    · simp_all
  · rcases answer with kept | ⟨_, raised⟩
    · exact course.rejected reason (kept ▸ same)
    · simp_all

/-- A node and what follows it. -/
theorem Course.after {rest : Served Number E} {name : String}
    (approved : name ∈ runner.interruptBefore.values → approvedNode = some name)
    (course : Course runner attempt property approvedNode rest) :
    Course runner attempt property approvedNode (.after name rest) where
  saved := course.saved
  deleted := course.deleted
  executed other member := by
    rcases List.mem_cons.mp member with rfl | later
    · exact approved
    · exact course.executed other later
  completed := course.completed
  rejected := course.rejected

theorem checkContext_ne_invalidWorkflow {attempt : Attempt Node Number E} {point : CheckPoint}
    (failed : checkContext attempt point = .error error) (reason : InvalidWorkflow) :
    error ≠ .invalidWorkflow reason := by
  unfold checkContext at failed
  split at failed <;> cases failed <;> exact nofun

theorem invokeNode_ne_invalidWorkflow {attempt : Attempt Node Number E} {name : String}
    {prepared : Node × Json Number} (failed : invokeNode attempt name prepared = .error error)
    (reason : InvalidWorkflow) : error ≠ .invalidWorkflow reason := by
  rw [invokeNode] at failed
  cases invoked : attempt.invoke name prepared.1 prepared.2 with
  | error => grind
  | ok =>
    rw [invoked] at failed
    cases checked : checkContext attempt (.after name) with
    | error =>
      simp only [checked] at failed
      cases failed
      exact checkContext_ne_invalidWorkflow checked reason
    | ok => simp_all

variable {resumeInput : Option (Json Number)}

/-- What the loop can do, by induction on the nodes that are left. -/
theorem driveFrom_course (kept : Kept runner attempt resumeInput property)
    (approvedNode : Option String) {left : List String} {checkpoint : WorkflowCheckpoint Number}
    {given : Option (Json Number)}
    (position : runner.graph.topology.drop checkpoint.nextNodeIndex = left)
    (holds : property checkpoint) (input : given = none ∨ given = resumeInput) :
    Course runner attempt property approvedNode
      (runner.driveFrom attempt approvedNode left checkpoint given) := by
  induction left generalizing checkpoint given with
  | nil =>
    rw [driveFrom]
    cases finished : runner.graph.finish checkpoint.values with
    | error =>
      refine ⟨nofun, nofun, nofun, nofun, fun reason same => ?_⟩
      cases same
      grind
    | ok =>
      refine Course.andThen nofun (fun runId same => ?_) ⟨nofun, nofun, nofun, ?_, nofun⟩
      · grind
      · grind
  | cons name rest ih =>
    rw [driveFrom]
    cases checked : checkContext attempt.toAttempt (.turn name) with
    | error => exact Course.failed (checkContext_ne_invalidWorkflow checked)
    | ok =>
      dsimp only
      split
      · refine Course.andThen (fun saved same => ?_) nofun ⟨nofun, nofun, nofun, nofun, nofun⟩
        cases same
        exact kept.marked checkpoint (some name) holds
      · rename_i passed
        have approved : name ∈ runner.interruptBefore.values → approvedNode = some name := by
          simp_all
        have override : (if approvedNode = some name then given else none) = none ∨
            (if approvedNode = some name then given else none) = resumeInput := by grind
        have remaining : (if approvedNode = some name then none else given) = none ∨
            (if approvedNode = some name then none else given) = resumeInput := by grind
        cases ready : runner.graph.prepare attempt.toAttempt name checkpoint.values
            (if approvedNode = some name then given else none) with
        | error error =>
          refine ⟨nofun, nofun, nofun, nofun, fun reason same => ?_⟩
          cases same
          grind
        | ok prepared =>
          refine Course.after approved ?_
          cases invoked : invokeNode attempt.toAttempt name prepared with
          | error => exact Course.failed (invokeNode_ne_invalidWorkflow invoked)
          | ok output =>
            have next := kept.stepped checkpoint name rest _ prepared output holds position override
              ready invoked
            refine Course.andThen (fun saved same => ?_) nofun ?_
            · simp_all
            · refine ih ?_ next remaining
              rw [← List.drop_drop, position]
              rfl

/-- The course from a checkpoint. -/
theorem drive_course (kept : Kept runner attempt resumeInput property)
    {checkpoint : WorkflowCheckpoint Number} (holds : property checkpoint) :
    Course runner attempt property checkpoint.interruptedBefore
      (runner.drive attempt checkpoint resumeInput) :=
  driveFrom_course kept checkpoint.interruptedBefore rfl (kept.marked checkpoint none holds) (.inr rfl)

variable {scope : Scope} {runId : String}

/-- The course from the start. -/
theorem start_course (kept : Kept runner attempt none property) {input : Json Number}
    (created : property ⟨1, runId, runner.graphRevision, scope, 0, CompiledGraph.started input, none⟩) :
    Course runner attempt property none (runner.start attempt scope runId input) := by
  rw [start]
  cases checked : checkContext attempt.toAttempt .started with
  | error => exact .failed (checkContext_ne_invalidWorkflow checked)
  | ok =>
    refine .andThen (fun saved same => ?_) nofun (drive_course kept created)
    cases same
    exact created

/-- The course from what is stored. -/
theorem resume_course (kept : Kept runner attempt resumeInput property)
    {stored : Option (WorkflowCheckpoint Number)}
    (recorded : ∀ checkpoint, stored = some checkpoint → property checkpoint) :
    Course runner attempt property (stored.bind WorkflowCheckpoint.interruptedBefore)
      (runner.resume attempt scope runId resumeInput stored) := by
  unfold resume
  cases checked : checkContext attempt.toAttempt .started with
  | error => exact .failed (checkContext_ne_invalidWorkflow checked)
  | ok =>
    cases attempt.load with
    | some => exact .failed nofun
    | none =>
      cases stored with
      | none => exact .failed nofun
      | some checkpoint =>
        dsimp only
        split_ifs
        · exact .failed nofun
        · exact .failed nofun
        · exact .failed nofun
        · exact drive_course kept (recorded checkpoint rfl)

/-- A resumption of another scope or revision invokes nothing and leaves the store as it is. -/
theorem resume_refused {stored : Option (WorkflowCheckpoint Number)}
    (different : ∀ checkpoint, stored = some checkpoint →
      checkpoint.scope ≠ scope ∨ checkpoint.graphRevision ≠ runner.graphRevision) :
    ∃ error, runner.resume attempt scope runId resumeInput stored = .failed error := by
  unfold resume
  cases checkContext attempt.toAttempt .started with
  | error => exact ⟨_, rfl⟩
  | ok =>
    cases attempt.load with
    | some => exact ⟨_, rfl⟩
    | none =>
      cases stored with
      | none => exact ⟨_, rfl⟩
      | some checkpoint =>
        dsimp only
        split_ifs with version revision other
        · exact ⟨_, rfl⟩
        · exact ⟨_, rfl⟩
        · exact ⟨_, rfl⟩
        · simp_all

end WorkflowRunner

end Roze.Ai
