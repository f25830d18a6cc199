import TensorInference.Graph.Diagnostics
import TensorInference.Graph.NodeId

/-!
# Graphs

A graph is a list of nodes.  A node is a parameter with a declared info, or an operator applied to
earlier nodes with the info that was inferred when it was added.  Nodes are never changed or
removed, so a position names the same node for good.

`addParameter` and `addOperator` return the graph after the call, what the call answers and what it
reports, as a `Step`.  A refused call leaves the nodes as they were.  An operator is refused for the
first input that is not a node, before anything is inferred; after that for the inference itself;
and at last, as a parameter is, when the positions are used up.
-/

namespace TensorInference

/-- A node of a graph. -/
inductive Node where
  /-- An input of the graph with a declared info. -/
  | parameter (name : String) (output : TensorInfo)
  /-- An operator applied to the outputs of other nodes. -/
  | operator (name : String) (op : Operator) (inputs : List NodeId) (output : TensorInfo)
  deriving DecidableEq, Repr

namespace Node

def name : Node → String
  | parameter name _ => name
  | operator name .. => name

/-- What is known of the output. -/
def output : Node → TensorInfo
  | parameter _ output => output
  | operator _ _ _ output => output

end Node

/-- Why a node was not added. -/
inductive Refusal where
  /-- An input is not a node of the graph. -/
  | missingInput (id : NodeId)
  /-- The output could not be inferred. -/
  | inference (error : InferError)
  /-- Every position is taken. -/
  | full
  deriving DecidableEq, Repr

/-- The text of a refusal alone. -/
def Refusal.message : Refusal → String
  | missingInput id => "input node " ++ id.text ++ " does not exist"
  | inference error => error.message
  | full => "node ID out of range"

/-- The inference error behind a refusal. -/
def Refusal.inferError? : Refusal → Option InferError
  | inference error => some error
  | missingInput _ | full => none

/-- A refusal, with the node that was refused. -/
structure NodeError where
  name : String
  op : Operator
  refusal : Refusal
  deriving DecidableEq, Repr

def NodeError.message (e : NodeError) : String :=
  "While validating node '" ++ e.name ++ "' (" ++ e.op.name ++ "): " ++ e.refusal.message

/-- A graph under construction. -/
structure Graph where
  nodes : Array Node
  diagnostics : Diagnostics
  deriving DecidableEq, Repr

namespace Graph

/-- The graph without nodes. -/
def new (level : DiagnosticLevel) : Graph := ⟨#[], .new level⟩

instance : Inhabited Graph := ⟨new .off⟩

/-- The graph after a call, the answer of the call, and what it reports. -/
structure Step (α : Type) where
  graph : Graph
  answer : α
  events : List Event

/-- The number of nodes. -/
def size (g : Graph) : Nat :=
  g.nodes.size

def isEmpty (g : Graph) : Bool :=
  g.nodes.isEmpty

/-- The node at a position. -/
def node? (g : Graph) (id : NodeId) : Option Node :=
  g.nodes[id.toNat]?

/-- What is known of the output of a node. -/
def output? (g : Graph) (id : NodeId) : Option TensorInfo :=
  (g.node? id).map Node.output

/-- The first node with a name. -/
def find? (g : Graph) (name : String) : Option NodeId :=
  (g.nodes.findIdx? fun node => node.name == name).bind fun position =>
    NodeId.ofUInt32? (UInt32.ofNat position)

/-- The nodes with their positions, in order. -/
def entries (g : Graph) : List (Nat × Node) :=
  g.nodes.toList.zipIdx.map fun (node, position) => ((UInt32.ofNat position).toNat, node)

/-- The position of the node that is added next, if there is one left. -/
def next? (g : Graph) : Option NodeId :=
  NodeId.ofUInt32? (UInt32.ofNat g.size)

/-- Changes how much the graph reports from here on. -/
def setLevel (g : Graph) (level : DiagnosticLevel) : Graph :=
  { g with diagnostics := { g.diagnostics with level } }

/-- Adds an input with a declared info, at the next position. -/
def addParameter (g : Graph) (name : String) (output : TensorInfo) :
    Step (Except Refusal NodeId) :=
  match g.next? with
  | some id => ⟨{ g with nodes := g.nodes.push (.parameter name output) }, .ok id, []⟩
  | none => ⟨g, .error .full, []⟩

/-- The infos of the inputs, or the first input that is not a node. -/
def inputInfos (g : Graph) : List NodeId → Except Refusal (List TensorInfo)
  | [] => .ok []
  | id :: ids =>
    match g.output? id with
    | none => .error (.missingInput id)
    | some info => do return info :: (← g.inputInfos ids)

/-- Adds an operator applied to earlier nodes, at the next position. -/
def addOperator (g : Graph) (name : String) (op : Operator) (inputs : List NodeId) :
    Step (Except NodeError NodeId) :=
  match g.inputInfos inputs with
  | .error refusal => ⟨g, .error ⟨name, op, refusal⟩, []⟩
  | .ok infos =>
    let heard := op.events infos
    match op.infer infos with
    | .error error =>
      let (diagnostics, report) := g.diagnostics.reportRejected name error
      ⟨{ g with diagnostics }, .error ⟨name, op, .inference error⟩, heard ++ report⟩
    | .ok output =>
      match g.next? with
      | none => ⟨g, .error ⟨name, op, .full⟩, heard⟩
      | some id =>
        let report := g.diagnostics.reportAdded id.toNat name op output
        ⟨{ g with nodes := g.nodes.push (.operator name op inputs output) }, .ok id,
          heard ++ report⟩

end Graph

end TensorInference
