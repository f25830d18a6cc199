import TensorInference.Graph.Basic

/-!
# Calls on a graph

The calls that change a graph, as values, so that a history of calls is a list.  `Graph.call` makes
one call and `Graph.run` makes them in turn and collects the answers.
-/

namespace TensorInference

/-- A call that changes a graph. -/
inductive Call where
  | addParameter (name : String) (output : TensorInfo)
  | addOperator (name : String) (op : Operator) (inputs : List NodeId)
  | setLevel (level : DiagnosticLevel)
  deriving DecidableEq, Repr

/-- What a call answers. -/
inductive Answer where
  /-- The position of the node that was added. -/
  | added (id : NodeId)
  /-- A parameter was not added. -/
  | refused (refusal : Refusal)
  /-- An operator was not added. -/
  | invalid (error : NodeError)
  /-- The level was set. -/
  | done
  deriving DecidableEq, Repr

namespace Graph

/-- Makes a call. -/
def call (g : Graph) : Call → Step Answer
  | .addParameter name output =>
    let step := g.addParameter name output
    match step.answer with
    | .ok id => ⟨step.graph, .added id, step.events⟩
    | .error refusal => ⟨step.graph, .refused refusal, step.events⟩
  | .addOperator name op inputs =>
    let step := g.addOperator name op inputs
    match step.answer with
    | .ok id => ⟨step.graph, .added id, step.events⟩
    | .error error => ⟨step.graph, .invalid error, step.events⟩
  | .setLevel level => ⟨g.setLevel level, .done, []⟩

/-- Makes calls in turn; every answer comes with the reports of its call. -/
def run (g : Graph) : List Call → Graph × List (Answer × List Event)
  | [] => (g, [])
  | call :: calls =>
    let step := g.call call
    let (last, answers) := step.graph.run calls
    (last, (step.answer, step.events) :: answers)

end Graph

end TensorInference
