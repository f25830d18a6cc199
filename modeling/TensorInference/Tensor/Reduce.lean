import TensorInference.Operator.Basic
import TensorInference.Tensor.Basic

/-!
# Reducing tensors

The axes of the tensor are split into those that stay and those that are reduced.  The indices over
the axes that stay are the lanes, and every lane gives one element of the output: the combiner of
the reduction takes in the elements of the lane in row-major order, starting from its identity.  A
lane without elements therefore gives the identity.

Whether the reduction is possible at all is decided by inference on the info of the tensor.
-/

namespace TensorInference.Tensor

variable {α : Type}

/-- The spans of the axes that stay. -/
def keptSpans (t : Tensor α) (axes : AxisSet) : List Span :=
  axes.collapse none t.spans

/-- The spans of the axes that are reduced. -/
def reducedSpans (t : Tensor α) (axes : AxisSet) : List Span :=
  axes.restrict t.spans

/-- The number of indices over the axes of some spans. -/
def countIndices (spans : List Span) : Except Fault Nat :=
  Fault.overflow.unless (Word.product? (spans.map Span.size))

/-- The combination of the first `count` elements of a lane that begins at `base`. -/
def foldLane (t : Tensor α) (c : Combiner α) (spans : List Span) (base count : Nat) :
    Except Fault α :=
  (List.range count).foldlM (fun held index => do
    let offset ← Layout.add base (← Layout.offsetOfFlat spans index)
    return c.combine held (← t.read offset)) c.identity

/-- The combinations of all lanes. -/
def foldLanes (t : Tensor α) (c : Combiner α) (axes : AxisSet) : Except Fault (Array α) := do
  let kept := t.keptSpans axes
  let reduced := t.reducedSpans axes
  let lanes ← countIndices kept
  let count ← countIndices reduced
  let data ← (List.range lanes).mapM fun lane => do
    t.foldLane c reduced (← Layout.offsetOfFlat kept lane) count
  return data.toArray

/-- The tensor reduced along the requested axes. -/
def reduce [Element α] (t : Tensor α) (reduction : Reduction) (requests : List Int)
    (keepDims : Bool) : Except Failure (Tensor α) := do
  let _ ← ((Operator.reduce reduction requests keepDims).infer [t.info]).mapError .rejected
  let axes ← (AxisSet.ofRequests (some t.rank) requests).mapError
    fun error => .rejected (.axisRange error)
  let c ← (Fault.unsupported.unless (Element.combiner? reduction)).mapError .stopped
  let data ← (t.foldLanes c axes).mapError .stopped
  return ⟨t.shape.reduce axes keepDims, data⟩

end TensorInference.Tensor
