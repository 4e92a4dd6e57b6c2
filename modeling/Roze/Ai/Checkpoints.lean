import Roze.Ai.Modes
import Roze.Ai.Runner

/-!
# A run that is resumed gives what one invocation gives

Every checkpoint that a run stores records the outputs of the first nodes in their order, as one
undisturbed invocation computes them. So whatever call completes the run, its output is the output
of the invocation. A node that needs approval is only invoked by a call that found the run stopped
before it, and a call of another scope or revision invokes nothing.
-/

namespace Roze.Ai

open CompiledGraph

open Roze.Library List

variable {Node Number E : Type}

/-- A call of a runner. -/
inductive Call (Node Number E : Type) where
  | start (runner : WorkflowRunner Node) (scope : Scope) (runId : String) (input : Json Number)
      (attempt : StoredAttempt Node Number E)
  | resume (runner : WorkflowRunner Node) (scope : Scope) (runId : String)
      (resumeInput : Option (Json Number)) (attempt : StoredAttempt Node Number E)

def Call.serve (store : CheckpointStore Number) : Call Node Number E → Served Number E
  | .start runner scope runId input attempt => runner.start attempt scope runId input
  | .resume runner scope runId resumeInput attempt =>
      runner.resume attempt scope runId resumeInput (store.get? runId)

/-- Calls on one store, one after another. -/
def workflows : Machine (CheckpointStore Number) (Call Node Number E) (Served Number E) where
  step store call :=
    some ((call.serve store).writes.foldl StoreWrite.apply store, call.serve store)

/-! ## Writes -/

/-- What is stored after some writes was there before or is one of them. -/
theorem get?_foldl_apply {writes : List (StoreWrite Number)} {store : CheckpointStore Number}
    {runId : String} {checkpoint : WorkflowCheckpoint Number}
    (found : (writes.foldl StoreWrite.apply store).get? runId = some checkpoint) :
    store.get? runId = some checkpoint ∨ .save checkpoint ∈ writes := by
  induction writes generalizing store with
  | nil => exact .inl found
  | cons write rest ih =>
    rcases ih found with before | later
    · cases write with
      | save =>
        simp only [StoreWrite.apply, Entries.get?_put] at before
        grind
      | delete =>
        simp only [StoreWrite.apply, Entries.get?_erase] at before
        simp_all
    · simp_all

/-! ## Recorded outputs -/

/-- The node answers as its function does, or fails. -/
def Faithful (attempt : Attempt (Json Number → Except E (Json Number)) Number E) : Prop :=
  ∀ name node input output, attempt.invoke name node input = .ok output → node input = .ok output

variable {name : String} {values : Values Number}

theorem executeNode_functional {graph : CompiledGraph (Json Number → Except E (Json Number))}
    {attempt : Attempt (Json Number → Except E (Json Number)) Number E}
    (faithful : Faithful attempt) {output : Json Number}
    {prepared : (Json Number → Except E (Json Number)) × Json Number}
    (ready : graph.prepare attempt name values none = .ok prepared)
    (invoked : invokeNode attempt name prepared = .ok output) :
    graph.executeNode functional name values none = .ok output := by
  have answered : attempt.invoke name prepared.1 prepared.2 = .ok output := by
    rw [invokeNode] at invoked
    split at invoked
    · cases invoked
    · rename_i returned
      obtain ⟨_, -, same⟩ := bind_ok invoked
      cases same
      exact returned
  -- what is prepared does not depend on the context, as long as it is not over
  obtain ⟨_, -, prepares⟩ := bind_ok ready
  have functionally : graph.prepare functional name values none = .ok prepared := prepares
  rw [executeNode, functionally]
  have same := faithful name prepared.1 prepared.2 output answered
  simp only [bind, Except.bind, invokeNode, functional, same]
  rfl

theorem mem_keys_runNodes {graph : CompiledGraph Node} {attempt : Attempt Node Number E}
    {names : List String} {result : Values Number}
    (ran : graph.runNodes attempt names values = .ok result) :
    name ∈ result.keys ↔ name ∈ names ∨ name ∈ values.keys := by
  induction names generalizing values with
  | nil =>
    cases ran
    simp
  | cons first rest ih =>
    obtain ⟨_, executed, later⟩ := bind_ok ran
    obtain ⟨_, -, filed⟩ := bind_ok executed
    cases filed
    rw [ih later, Entries.mem_keys_put, mem_cons]
    tauto

section Runs

variable {runner : WorkflowRunner (Json Number → Except E (Json Number))} {input : Json Number}
  {attempt : StoredAttempt (Json Number → Except E (Json Number)) Number E}

/-- A checkpoint of the runner, with the outputs of the nodes before its position. -/
structure Recorded (runner : WorkflowRunner (Json Number → Except E (Json Number)))
    (input : Json Number) (checkpoint : WorkflowCheckpoint Number) : Prop where
  revision : checkpoint.graphRevision = runner.graphRevision
  values : runner.graph.runNodes functional (runner.graph.topology.take checkpoint.nextNodeIndex)
    (CompiledGraph.started input) = .ok checkpoint.values

theorem recorded_kept (faithful : Faithful attempt.toAttempt) :
    runner.Kept attempt none (Recorded runner input) where
  marked _ _ recorded := ⟨recorded.revision, recorded.values⟩
  stepped checkpoint name rest inputOverride prepared output recorded position given ready invoked := by
    obtain rfl : inputOverride = none := by simpa using given
    refine ⟨recorded.revision, ?_⟩
    have next : runner.graph.topology.take (checkpoint.nextNodeIndex + 1) =
        runner.graph.topology.take checkpoint.nextNodeIndex ++ [name] := by
      rw [take_add, position]
      rfl
    rw [next, runNodes_append, recorded.values]
    simp only [bind, Except.bind, runNodes, foldlM_cons, foldlM_nil,
      executeNode_functional faithful ready invoked]
    rfl

/-- The keys of the values of a recorded checkpoint. -/
theorem Recorded.keys {checkpoint : WorkflowCheckpoint Number} (recorded : Recorded runner input checkpoint)
    (name : String) :
    name ∈ checkpoint.values.keys ↔
      name = START ∨ name ∈ runner.graph.topology.take checkpoint.nextNodeIndex := by
  rw [mem_keys_runNodes recorded.values, started, Entries.mem_keys_put, or_comm]
  simp [Entries.keys, KeyedMap.empty]

/-- What the last checkpoint of a run gives is the output of the invocation. -/
theorem Recorded.output {checkpoint : WorkflowCheckpoint Number} {output : Json Number}
    (recorded : Recorded runner input checkpoint)
    (position : runner.graph.topology.drop checkpoint.nextNodeIndex = [])
    (finished : runner.graph.finish checkpoint.values = (.ok output : Except (AiError E) _)) :
    runner.graph.invoke functional input = .ok output := by
  have all : runner.graph.topology.take checkpoint.nextNodeIndex = runner.graph.topology :=
    take_of_length_le (drop_eq_nil_iff.mp position)
  have values := recorded.values
  rw [all] at values
  simp only [invoke, invokeWithMode, values]
  exact finished

/-- What is asked of a call of a run: it completes with the output of the invocation; a node that
needs approval is invoked by a resumption that found the run stopped before it; what is saved is
the input and the outputs of the first nodes; and another scope or revision invokes nothing. -/
structure Consistent (runner : WorkflowRunner (Json Number → Except E (Json Number)))
    (input : Json Number) (store : CheckpointStore Number)
    (call : Call (Json Number → Except E (Json Number)) Number E) (served : Served Number E) : Prop where
  completed : ∀ runId output, served.answer = .ok (.completed runId output) →
    runner.graph.invoke functional input = .ok output
  approved : ∀ name ∈ served.executed, name ∈ runner.interruptBefore.values →
    ∃ caller scope runId resumeInput attempt loaded,
      call = .resume caller scope runId resumeInput attempt ∧ store.get? runId = some loaded ∧
        loaded.interruptedBefore = some name
  saved : ∀ checkpoint, .save checkpoint ∈ served.writes →
    runner.graph.runNodes functional (runner.graph.topology.take checkpoint.nextNodeIndex)
        (CompiledGraph.started input) = .ok checkpoint.values ∧
      ∀ name, name ∈ checkpoint.values.keys ↔
        name = START ∨ name ∈ runner.graph.topology.take checkpoint.nextNodeIndex
  refused : ∀ caller scope runId resumeInput attempt loaded,
    call = .resume caller scope runId resumeInput attempt → store.get? runId = some loaded →
    loaded.scope ≠ scope ∨ loaded.graphRevision ≠ caller.graphRevision → served.executed = []

/-- A resumption of the run without input, by its runner or by one of another revision. -/
def Resumes (runner : WorkflowRunner (Json Number → Except E (Json Number))) (runId : String)
    (call : Call (Json Number → Except E (Json Number)) Number E) : Prop :=
  ∃ caller scope attempt, call = .resume caller scope runId none attempt ∧
    Faithful attempt.toAttempt ∧ (caller = runner ∨ caller.graphRevision ≠ runner.graphRevision)

/-- A course over recorded checkpoints is what is asked. -/
theorem consistent_of_course {store : CheckpointStore Number}
    {call : Call (Json Number → Except E (Json Number)) Number E} {approvedNode : Option String}
    (course : runner.Course attempt (Recorded runner input) approvedNode (call.serve store))
    (approved : ∀ name, approvedNode = some name →
      ∃ caller scope runId resumeInput attempt loaded,
        call = .resume caller scope runId resumeInput attempt ∧ store.get? runId = some loaded ∧
          loaded.interruptedBefore = some name) :
    Consistent runner input store call (call.serve store) where
  completed runId output answered := by
    obtain ⟨checkpoint, recorded, position, finished⟩ := course.completed runId output answered
    exact recorded.output position finished
  approved name executed listed := approved name (course.executed name executed listed)
  saved checkpoint member :=
    ⟨(course.saved checkpoint member).values, (course.saved checkpoint member).keys⟩
  refused caller scope runId resumeInput attempt loaded own found different := by
    obtain ⟨error, failed⟩ : ∃ error, caller.resume attempt scope runId resumeInput (store.get? runId) =
        .failed error := by
      apply WorkflowRunner.resume_refused
      intro checkpoint same
      rwa [← Option.some.inj (found.symm.trans same)]
    rw [own, Call.serve, failed]
    rfl

/-- A resumption keeps the checkpoint of the run recorded. -/
theorem resume_consistent {runId : String}
    {call : Call (Json Number → Except E (Json Number)) Number E} (resumes : Resumes runner runId call)
    {store : CheckpointStore Number}
    (recorded : ∀ checkpoint, store.get? runId = some checkpoint → Recorded runner input checkpoint) :
    Consistent runner input store call (call.serve store) ∧
      ∀ checkpoint, .save checkpoint ∈ (call.serve store).writes → Recorded runner input checkpoint := by
  obtain ⟨caller, scope, attempt, rfl, faithful, own | other⟩ := resumes
  · subst own
    have course : caller.Course attempt (Recorded caller input)
        ((store.get? runId).bind WorkflowCheckpoint.interruptedBefore)
        (caller.resume attempt scope runId none (store.get? runId)) :=
      WorkflowRunner.resume_course (recorded_kept faithful) recorded
    refine ⟨consistent_of_course course fun name stopped => ?_, course.saved⟩
    obtain ⟨loaded, found, before⟩ := Option.bind_eq_some_iff.mp stopped
    simp_all
  · -- what is stored is of the run's own revision
    obtain ⟨error, failed⟩ : ∃ error, caller.resume attempt scope runId none (store.get? runId) =
        .failed error := by
      apply WorkflowRunner.resume_refused
      intro checkpoint found
      rw [(recorded checkpoint found).revision]
      exact .inr (Ne.symm other)
    rw [Call.serve, failed]
    exact ⟨⟨nofun, nofun, nofun, fun _ _ _ _ _ _ _ _ _ => rfl⟩, nofun⟩

/-- Every call of a run that is started once and then resumed is what is asked, when no checkpoint
is stored under the drawn run id before. -/
theorem checkpointed_runs {runId : String} {store : CheckpointStore Number}
    (fresh : store.get? runId = none) (faithful : Faithful attempt.toAttempt) (scope : Scope)
    (served : Served Number E)
    {resumptions : List (Call (Json Number → Except E (Json Number)) Number E × Served Number E)}
    (resumes : ∀ event ∈ resumptions, Resumes runner runId event.1) :
    workflows.Along (fun store call served _ => Consistent runner input store call served) store
      ((.start runner scope runId input attempt, served) :: resumptions) := by
  refine Machine.along_of_invariant
    (fun call => call = .start runner scope runId input attempt ∨ Resumes runner runId call)
    (fun store => ∀ checkpoint, store.get? runId = some checkpoint → Recorded runner input checkpoint)
    ?_ ?_ ?_
  · intro checkpoint found
    rw [fresh] at found
    cases found
  · intro store call served next recorded allowed taken
    cases taken
    obtain ⟨consistent, saved⟩ : Consistent runner input store call (call.serve store) ∧
        ∀ checkpoint, .save checkpoint ∈ (call.serve store).writes → Recorded runner input checkpoint := by
      rcases allowed with rfl | resumes
      · have course : runner.Course attempt (Recorded runner input) none
            (runner.start attempt scope runId input) :=
          WorkflowRunner.start_course (recorded_kept faithful) ⟨rfl, rfl⟩
        exact ⟨consistent_of_course course nofun, course.saved⟩
      · exact resume_consistent resumes recorded
    refine ⟨consistent, fun checkpoint found => ?_⟩
    exact (get?_foldl_apply found).elim (recorded checkpoint) (saved checkpoint)
  · intro event member
    exact (mem_cons.mp member).imp (congrArg Prod.fst) (resumes event)

end Runs

namespace Diamond

/-- A call in which nothing fails. -/
def reliable : StoredAttempt (Json Nat → Except String (Json Nat)) Nat String :=
  { functional with load := none, save := fun _ => .done, delete := .done }

/-- The store does not answer after it has taken the output of the first branch. -/
def unanswered : StoredAttempt (Json Nat → Except String (Json Nat)) Nat String :=
  { reliable with save := fun point => if point = .executed "left" then .unconfirmed "timeout" else .done }

def runner (graph : CompiledGraph (Json Nat → Except String (Json Nat))) :
    WorkflowRunner (Json Nat → Except String (Json Nat)) :=
  ⟨graph, "v1", .collect id ["join"]⟩

def owner : Scope := ⟨some "acme", some "ana"⟩

/-- A start that fails, a resumption up to the node that needs approval, one by another tenant, and
one that approves. -/
def resumptions (graph : CompiledGraph (Json Nat → Except String (Json Nat))) :
    List (Call (Json Nat → Except String (Json Nat)) Nat String) :=
  [.resume (runner graph) owner "run" none reliable,
    .resume (runner graph) ⟨some "other", some "ana"⟩ "run" none reliable,
    .resume (runner graph) owner "run" none reliable]

def begin (graph : CompiledGraph (Json Nat → Except String (Json Nat))) :
    Call (Json Nat → Except String (Json Nat)) Nat String :=
  .start (runner graph) owner "run" (.string "input") unanswered

end Diamond

open Diamond

theorem checkpointed_runs_diamond :
    ∃ graph final events, Diamond.builder.compile = .ok graph ∧
      workflows.exec (.empty _) (Diamond.begin graph :: Diamond.resumptions graph) = some (final, events) ∧
      events.map (fun event => event.2.answer) =
        [.error (.raised "timeout"), .ok (.interrupted ⟨"run", "join", "v1"⟩),
          .error .checkpointScopeMismatch,
          .ok (.completed "run"
            (.array [.object [("left", .string "input")], .object [("right", .string "input")]]))] ∧
      workflows.Along (fun store call served _ =>
        Consistent (Diamond.runner graph) (.string "input") store call served) (.empty _) events := by
  obtain ⟨graph, compiled⟩ := compiles
  have answered : builder.compile.map (fun graph =>
      (workflows.exec (.empty _) (begin graph :: resumptions graph)).map
        (fun run => run.2.map (fun event => event.2.answer))) =
      .ok (some [.error (.raised "timeout"), .ok (.interrupted ⟨"run", "join", "v1"⟩),
        .error .checkpointScopeMismatch,
        .ok (.completed "run"
          (.array [.object [("left", .string "input")], .object [("right", .string "input")]]))]) := by
    decide +kernel
  rw [compiled, Except.map, Except.ok.injEq] at answered
  obtain ⟨⟨final, events⟩, ran, answers⟩ := Option.map_eq_some_iff.mp answered
  refine ⟨graph, final, events, compiled, ran, answers, ?_⟩
  have faithful (attempt : StoredAttempt (Json Nat → Except String (Json Nat)) Nat String)
      (same : attempt.invoke = reliable.invoke) : Faithful attempt.toAttempt := by
    intro name node input output invoked
    rw [same] at invoked
    exact invoked
  cases events with
  | nil => cases answers
  | cons first =>
    obtain ⟨begun, resumed⟩ := List.cons.inj (Machine.exec_actions ran)
    obtain ⟨_, served⟩ := first
    cases begun
    have fresh : Entries.get? (.empty _ : CheckpointStore Nat) "run" = none := rfl
    refine checkpointed_runs fresh (faithful unanswered rfl) _ served fun event member => ?_
    have listed : event.1 ∈ resumptions graph := resumed ▸ mem_map_of_mem member
    simp only [resumptions, mem_cons, not_mem_nil, or_false] at listed
    rcases listed with same | same | same <;> exact ⟨_, _, _, same, faithful _ rfl, .inl rfl⟩

end Roze.Ai
