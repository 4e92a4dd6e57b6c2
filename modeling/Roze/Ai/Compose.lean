import Roze.Library.FiniteGraph
import Roze.Library.KeyedMap
import Roze.Library.Text

/-!
# Building and compiling workflows

A builder collects named nodes and edges. Two names are reserved, for the input and the output of
the workflow. Compiling checks the edges, puts the nodes into layers so that each comes after its
predecessors, and checks that everything can be reached from the input. What a node does plays no
part in it.
-/

namespace Roze.Ai

open Roze.Library

def START : String := "__start__"

def END : String := "__end__"

/-- The reasons of `AiError::InvalidWorkflow`. -/
inductive InvalidWorkflow where
  | emptyName
  | reservedName (name : String)
  | duplicateNode (name : String)
  | duplicateEdge (source target : String)
  | noEdges
  | outOfEnd
  | intoStart
  | missingSource (source : String)
  | missingTarget (target : String)
  | noStart
  | noEnd
  | cycle
  | unreachable (name : String)
  | endUnreachable
  | missingInputs (name : String)
  | unavailable (source name : String)
  | noInput (name : String)
  | missingNode (name : String)
  | emptyRevision
  | missingInterrupt (name : String)
deriving DecidableEq

abbrev Edges := List (String × String)

/-! ## Builders -/

def validateNodeName (name : String) : Except InvalidWorkflow Unit :=
  if name.isEmpty then .error .emptyName
  else if name = START ∨ name = END then .error (.reservedName name)
  else .ok ()

/-- Nodes by their names, and edges. -/
structure GraphBuilder (Node : Type) where
  nodes : Entries String Node
  edges : Edges
  named : ∀ name ∈ nodes.keys, validateNodeName name = .ok ()
  distinct : edges.Nodup

namespace GraphBuilder

variable {Node : Type}

def new : GraphBuilder Node where
  nodes := .empty _
  edges := []
  named := nofun
  distinct := .nil

/-- File a node under its name without white space at the ends. -/
def insertNode (builder : GraphBuilder Node) (name : String) (node : Node) :
    Except InvalidWorkflow (GraphBuilder Node) :=
  match valid : validateNodeName (trim name) with
  | .error reason => .error reason
  | .ok () =>
      if (builder.nodes.get? (trim name)).isSome then .error (.duplicateNode (trim name))
      else .ok
        { builder with
          nodes := builder.nodes.put (trim name) node
          named := by
            intro other member
            rcases Entries.mem_keys_put.mp member with rfl | old
            · exact valid
            · exact builder.named other old }

def addEdge (builder : GraphBuilder Node) (source target : String) :
    Except InvalidWorkflow (GraphBuilder Node) :=
  if fresh : (source, target) ∈ builder.edges then .error (.duplicateEdge source target)
  else .ok
    { builder with
      edges := builder.edges ++ [(source, target)]
      distinct := List.nodup_append'.mpr
        ⟨builder.distinct, List.nodup_singleton _, by simpa using fresh⟩ }

end GraphBuilder

/-! ## Checks -/

/-- What is wrong with an edge. -/
def edgeError (names : List String) (edge : String × String) : Option InvalidWorkflow :=
  if edge.1 = END then some .outOfEnd
  else if edge.2 = START then some .intoStart
  else if edge.1 ≠ START ∧ edge.1 ∉ names then some (.missingSource edge.1)
  else if edge.2 ≠ END ∧ edge.2 ∉ names then some (.missingTarget edge.2)
  else none

def validateEdges (names : List String) (edges : Edges) : Except InvalidWorkflow Unit :=
  if edges.isEmpty then .error .noEdges
  else match edges.findSome? (edgeError names) with
    | some reason => .error reason
    | none =>
        if !edges.any (fun edge => edge.1 = START) then .error .noStart
        else if !edges.any (fun edge => edge.2 = END) then .error .noEnd
        else .ok ()

/-- How many edges lead to a node from nodes. -/
def indegree (edges : Edges) (name : String) : Nat :=
  edges.countP (fun edge => edge.2 = name && edge.1 ≠ START)

/-- The nodes that the edges from a name lead to. -/
def outgoing (edges : Edges) (name : String) : List String :=
  successors (edges.filter (fun edge => edge.2 ≠ END)) name

/-- A `BTreeSet` of names. -/
abbrev NameSet := KeyedMap (id : String → String)

/-- One predecessor of the target is done; a target without any left is ready. An edge is released
once, so the degree is positive before. -/
def release (state : (String → Nat) × NameSet) (target : String) : (String → Nat) × NameSet :=
  let degree := state.1 target - 1
  (Function.update state.1 target degree, if degree = 0 then state.2.insert target else state.2)

/-- The loop of `topological_layers`. Each round takes a layer, so there are not more rounds than
nodes. -/
def layersFrom (edges : Edges) : Nat → (String → Nat) → NameSet → List (List String)
  | 0, _, _ => []
  | rounds + 1, degrees, ready =>
      if ready.values.isEmpty then []
      else
        let layer := ready.values
        let released := (layer.flatMap (outgoing edges)).foldl release (degrees, .empty id)
        layer :: layersFrom edges rounds released.1 released.2

def topologicalLayers (names : List String) (edges : Edges) :
    Except InvalidWorkflow (List (List String)) :=
  let ready := KeyedMap.collect id (names.filter (fun name => indegree edges name = 0))
  let layers := layersFrom edges names.length (indegree edges) ready
  if (layers.map List.length).sum ≠ names.length then .error .cycle else .ok layers

def validateReachability (names : List String) (edges : Edges) : Except InvalidWorkflow Unit :=
  let visited := search edges (edges.length + 1) [START] ∅
  match names.find? (fun name => name ∉ visited) with
  | some name => .error (.unreachable name)
  | none => if END ∉ visited then .error .endUnreachable else .ok ()

/-- The sources of the edges to each node and to the output, in the order of the edges. -/
def incomingEdges (names : List String) (edges : Edges) : Entries String (List String) :=
  edges.foldl (fun incoming edge =>
      incoming.put edge.2 ((incoming.get? edge.2).getD [] ++ [edge.1]))
    ((names ++ [END]).foldl (fun incoming name => incoming.put name []) (.empty _))

/-! ## Compiling -/

structure CompiledGraph (Node : Type) where
  nodes : Entries String Node
  incoming : Entries String (List String)
  topology : List String
  layers : List (List String)

def GraphBuilder.compile {Node : Type} (builder : GraphBuilder Node) :
    Except InvalidWorkflow (CompiledGraph Node) := do
  let names := builder.nodes.keys
  validateEdges names builder.edges
  let layers ← topologicalLayers names builder.edges
  validateReachability names builder.edges
  return {
    nodes := builder.nodes
    incoming := incomingEdges names builder.edges
    topology := layers.flatten
    layers }

end Roze.Ai
