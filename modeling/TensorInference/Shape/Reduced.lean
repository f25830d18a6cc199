import TensorInference.Axis.Set
import TensorInference.Shape.Partial

/-!
# Shapes after a reduction

A reduction drops the reduced axes, or keeps them with an extent of one.  Axes at or past the rank
reduce nothing, and of an unknown rank nothing is known afterwards either.
-/

namespace TensorInference

/-- The shape that is left of a partial shape after `axes` are reduced. -/
def PartialShape.reduce (axes : AxisSet) (keepDims : Bool) : PartialShape → PartialShape
  | unranked => unranked
  | ranked dims => ranked (axes.collapse (if keepDims then some (.known 1) else none) dims)

/-- The shape that is left of a shape after `axes` are reduced. -/
def Shape.reduce (axes : AxisSet) (keepDims : Bool) (s : Shape) : Shape :=
  ⟨axes.collapse (if keepDims then some 1 else none) s.dims⟩

end TensorInference
