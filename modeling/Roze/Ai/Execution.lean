import Roze.Ai.Compose
import Roze.Library.Fallible
import Roze.Library.Json

/-!
# Executing compiled workflows

A compiled graph runs its nodes one after another, or a layer at a time, and hands each node the
outputs of its sources. As a stream it also reports when nodes start and complete. What the nodes
answer, and whether the context is cancelled or late when it is looked at, is up to the attempt.
-/

namespace Roze.Ai

open Roze.Library

/-- The errors of a run. What a node or a store reports is kept apart from what the framework
itself reports. -/
inductive AiError (E : Type) where
  | invalidWorkflow (reason : InvalidWorkflow)
  | cancelled
  | deadlineExceeded
  | checkpointVersion (version : Nat)
  | checkpointNotFound (runId : String)
  | checkpointRevisionMismatch (expected actual : String)
  | checkpointScopeMismatch
  | raised (error : E)
deriving DecidableEq

/-- Where a run looks at its context. -/
inductive CheckPoint where
  | started
  | layer (names : List String)
  | turn (name : String)
  | before (name : String)
  | after (name : String)
deriving DecidableEq

/-- What a run looks at finds a context that is over. -/
inductive ContextEnd where
  | cancelled
  | expired
deriving DecidableEq

/-- How the context and the nodes behave during one run. A run executes a node once. -/
structure Attempt (Node Number E : Type) where
  check : CheckPoint → Option ContextEnd
  invoke : String → Node → Json Number → Except E (Json Number)

variable {Node Number E : Type}

def checkContext (attempt : Attempt Node Number E) (point : CheckPoint) : Except (AiError E) Unit :=
  match attempt.check point with
  | some .cancelled => .error .cancelled
  | some .expired => .error .deadlineExceeded
  | none => .ok ()

abbrev Values (Number : Type) := Entries String (Json Number)

def sourceValue (name : String) (values : Values Number) (source : String) :
    Except InvalidWorkflow (Json Number) :=
  match values.get? source with
  | some value => .ok value
  | none => .error (.unavailable source name)

/-- The output of the only source, or the array of the outputs. -/
def collectInputs (name : String) (incoming : Entries String (List String)) (values : Values Number) :
    Except InvalidWorkflow (Json Number) := do
  let some sources := incoming.get? name | .error (.missingInputs name)
  let inputs ← sources.mapM (sourceValue name values)
  match inputs with
  | [] => .error (.noInput name)
  | [input] => .ok input
  | inputs => .ok (.array inputs)

namespace CompiledGraph

variable (graph : CompiledGraph Node) (attempt : Attempt Node Number E)

/-- What comes before a node is invoked in `execute_node`. -/
def prepare (name : String) (values : Values Number) (inputOverride : Option (Json Number)) :
    Except (AiError E) (Node × Json Number) := do
  checkContext attempt (.before name)
  let input ← match inputOverride with
    | some input => .ok input
    | none => (collectInputs name graph.incoming values).mapError .invalidWorkflow
  match graph.nodes.get? name with
  | none => .error (.invalidWorkflow (.missingNode name))
  | some node => .ok (node, input)

end CompiledGraph

/-- Invoke a node. Its output is dropped when the context is over by then. -/
def invokeNode (attempt : Attempt Node Number E) (name : String) (prepared : Node × Json Number) :
    Except (AiError E) (Json Number) :=
  match attempt.invoke name prepared.1 prepared.2 with
  | .error error => .error (.raised error)
  | .ok output => do
      checkContext attempt (.after name)
      return output

namespace CompiledGraph

variable (graph : CompiledGraph Node) (attempt : Attempt Node Number E)

def executeNode (name : String) (values : Values Number) (inputOverride : Option (Json Number)) :
    Except (AiError E) (Json Number) := do
  let prepared ← graph.prepare attempt name values inputOverride
  invokeNode attempt name prepared

end CompiledGraph

inductive WorkflowExecutionMode where
  | sequential
  | parallelLayers
deriving DecidableEq

namespace CompiledGraph

variable (graph : CompiledGraph Node) (attempt : Attempt Node Number E)

/-- Execute nodes one after another. -/
def runNodes (names : List String) (values : Values Number) : Except (AiError E) (Values Number) :=
  names.foldlM (fun values name => do
    let output ← graph.executeNode attempt name values none
    return values.put name output) values

/-- Execute the nodes of a layer on the same values, and then file their outputs in order. -/
def runLayer (values : Values Number) (layer : List String) : Except (AiError E) (Values Number) := do
  checkContext attempt (.layer layer)
  let outputs := layer.map (fun name => (name, graph.executeNode attempt name values none))
  outputs.foldlM (fun values (output : String × Except (AiError E) (Json Number)) => do
    let value ← output.2
    return values.put output.1 value) values

def started (input : Json Number) : Values Number := Entries.put (.empty _) START input

/-- The output of the workflow from the values of its nodes. -/
def finish (values : Values Number) : Except (AiError E) (Json Number) :=
  (collectInputs END graph.incoming values).mapError .invalidWorkflow

def invokeWithMode (input : Json Number) (mode : WorkflowExecutionMode) :
    Except (AiError E) (Json Number) := do
  checkContext attempt .started
  let values ← match mode with
    | .sequential => graph.runNodes attempt graph.topology (started input)
    | .parallelLayers => graph.layers.foldlM (graph.runLayer attempt) (started input)
  graph.finish values

def invoke (input : Json Number) : Except (AiError E) (Json Number) :=
  graph.invokeWithMode attempt input .sequential

end CompiledGraph

/-! ## Streams -/

inductive WorkflowEvent (Number : Type) where
  | runStarted (runId : String) (mode : WorkflowExecutionMode)
  | nodeStarted (runId : String) (node : String)
  | nodeCompleted (runId : String) (node : String) (output : Json Number)
  | runCompleted (runId : String) (output : Json Number)
deriving DecidableEq

/-- A stream yields events until it is over or fails. -/
abbrev WorkflowEventStream (Number E : Type) := Generator (WorkflowEvent Number) (AiError E)

namespace CompiledGraph

variable (graph : CompiledGraph Node) (attempt : Attempt Node Number E)

def streamNode (runId : String) (values : Values Number) (name : String) :
    WorkflowEventStream Number E (Values Number) := do
  Generator.yield (.nodeStarted runId name)
  let output ← Generator.attempt (graph.executeNode attempt name values none)
  let values := values.put name output
  Generator.yield (.nodeCompleted runId name output)
  return values

def streamLayer (runId : String) (values : Values Number) (layer : List String) :
    WorkflowEventStream Number E (Values Number) := do
  Generator.attempt (checkContext attempt (.layer layer))
  layer.foldlM (fun _ name => Generator.yield (.nodeStarted runId name)) ()
  let outputs := layer.map (fun name => (name, graph.executeNode attempt name values none))
  outputs.foldlM (fun values (output : String × Except (AiError E) (Json Number)) => do
    let value ← Generator.attempt output.2
    let values := values.put output.1 value
    Generator.yield (.nodeCompleted runId output.1 value)
    return values) values

def stream (runId : String) (input : Json Number) (mode : WorkflowExecutionMode) :
    WorkflowEventStream Number E Unit := do
  Generator.attempt (checkContext attempt .started)
  Generator.yield (.runStarted runId mode)
  let values ← match mode with
    | .sequential => graph.topology.foldlM (graph.streamNode attempt runId) (started input)
    | .parallelLayers => graph.layers.foldlM (graph.streamLayer attempt runId) (started input)
  let output ← Generator.attempt (graph.finish values)
  Generator.yield (.runCompleted runId output)

end CompiledGraph

/-- The error that ended a stream, or the output of its last event. -/
def terminal (stream : WorkflowEventStream Number E Unit) :
    Except (AiError E) (Option (Json Number)) :=
  stream.ended.map (fun _ =>
    match stream.items.getLast? with
    | some (.runCompleted _ output) => some output
    | _ => none)

end Roze.Ai
