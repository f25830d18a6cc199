import TensorInference.ElementType
import TensorInference.Shape.Partial

/-!
# Tensor infos

What inference knows of the value on an edge: its element type and its shape, each perhaps only in
part.
-/

namespace TensorInference

/-- The element type and the shape of a value. -/
structure TensorInfo where
  elementType : ElementType
  shape : PartialShape
  deriving DecidableEq, Repr, Inhabited

namespace TensorInfo

/-- Nothing is known of the value. -/
def dynamic : TensorInfo := ⟨.dynamic, .unranked⟩

/-- The element type, a space, and the shape. -/
def text (info : TensorInfo) : String :=
  info.elementType.name ++ " " ++ info.shape.text

end TensorInfo

end TensorInference
