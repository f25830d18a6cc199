import TensorInference.Operator.Basic
import TensorInference.Tensor.Basic

/-!
# Reversing tensors

Reversing an axis of extent `n` takes coordinate `c` to `n - 1 - c`.  The elements of the output are
read in order from the offset where all reversed axes stand at their ends, stepping backwards along
these axes and forwards along the others.

The elements of the result are counted from the left like those of any result, so a tensor without
elements whose running count leaves the word cannot be reversed.
-/

namespace TensorInference.Tensor

variable {α : Type}

/-- The spans of all axes, with a mark at those in `axes`. -/
def markedSpans (t : Tensor α) (axes : AxisSet) : List (Span × Bool) :=
  t.spans.zipIdx.map fun (span, axis) => (span, axes.contains axis)

/-- The elements in the order of the reversed tensor. -/
def reversedData (t : Tensor α) (axes : AxisSet) : Except Fault (Array α) := do
  let spans := t.markedSpans axes
  let start ← Layout.reversedStart spans
  let data ← (List.range t.size).mapM fun index => do
    t.read (← Layout.offsetOfReversed spans start index)
  return data.toArray

/-- The tensor reversed along the given axes. -/
def reverse [Element α] (t : Tensor α) (axes : ReversedAxes) : Except Failure (Tensor α) := do
  let _ ← ((Operator.reverse axes).infer [t.info]).mapError .rejected
  let axes ← (axes.resolve (some t.rank)).mapError .rejected
  let data ← (t.reversedData axes).mapError .stopped
  let _ ← (Fault.overflow.unless t.shape.runningCount?).mapError .stopped
  return ⟨t.shape, data⟩

end TensorInference.Tensor
