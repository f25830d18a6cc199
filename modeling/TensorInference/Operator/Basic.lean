import TensorInference.Operator.ReversedAxes
import TensorInference.Shape.Reduced
import TensorInference.TensorInfo

/-!
# Operators and their inference

The closed set of operators that a graph is built from, and `Operator.infer`, which finds the
element type and the shape of the output from what is known of the inputs.

* An elementwise operator on one value passes its input on.
* An elementwise operator on two values unifies the element types, and after that the shapes,
  either as they stand or stretched to each other.
* A reduction checks the element type, and after that its axes.
* A reversal checks its axes and passes its input on.

The number of inputs is checked before all else.
-/

namespace TensorInference

/-- How the shapes of two inputs come together. -/
inductive ShapeRule where
  /-- The shapes must agree as they stand. -/
  | merge
  /-- Extents of one stretch to the extent on the other side. -/
  | broadcast
  deriving DecidableEq, Repr

instance : Inhabited ShapeRule := ⟨.broadcast⟩

/-- The shape of two inputs together. -/
def ShapeRule.unify (rule : ShapeRule) (a b : PartialShape) :
    Except PartialShape.Conflict PartialShape :=
  match rule with
  | merge => a.merge b
  | broadcast => a.broadcast b

/-- An operator of a graph. -/
inductive Operator where
  /-- An elementwise operator on one value. -/
  | unary (name : String)
  /-- An elementwise operator on two values. -/
  | binary (name : String) (rule : ShapeRule)
  /-- A reduction along the requested axes. -/
  | reduce (reduction : Reduction) (requests : List Int) (keepDims : Bool)
  /-- A reversal along the chosen axes. -/
  | reverse (axes : ReversedAxes)
  deriving DecidableEq, Repr

namespace Operator

/-- The name of the type of operator. -/
def name : Operator → String
  | unary name => name
  | binary name _ => name
  | reduce reduction _ _ => reduction.name
  | reverse _ => "Reverse"

/-- The input of an operator that takes one. -/
def singleInput (inputs : List TensorInfo) : Except InferError TensorInfo :=
  match inputs with
  | [info] => .ok info
  | _ => .error (.inputCount 1 inputs.length)

/-- The output of a pair of inputs. -/
def inferPair (rule : ShapeRule) (a b : TensorInfo) : Except InferError TensorInfo := do
  let elementType ← (a.elementType.merge b.elementType).mapError .typeConflict
  let shape ← (rule.unify a.shape b.shape).mapError .shapeConflict
  return ⟨elementType, shape⟩

/-- The output of a reduction. -/
def inferReduce (reduction : Reduction) (requests : List Int) (keepDims : Bool)
    (info : TensorInfo) : Except InferError TensorInfo := do
  reduction.check info.elementType
  let axes ← (AxisSet.ofRequests info.shape.rank? requests).mapError .axisRange
  return ⟨info.elementType, info.shape.reduce axes keepDims⟩

/-- The output of a reversal. -/
def inferReverse (axes : ReversedAxes) (info : TensorInfo) : Except InferError TensorInfo := do
  let _ ← axes.resolve info.shape.rank?
  return info

/-- What is known of the output of an operator. -/
def infer (op : Operator) (inputs : List TensorInfo) : Except InferError TensorInfo :=
  match op, inputs with
  | unary _, inputs => singleInput inputs
  | binary _ rule, [a, b] => inferPair rule a b
  | binary _ _, inputs => .error (.inputCount 2 inputs.length)
  | reduce reduction requests keepDims, inputs => do
    inferReduce reduction requests keepDims (← singleInput inputs)
  | reverse axes, inputs => do
    inferReverse axes (← singleInput inputs)

end Operator

end TensorInference
