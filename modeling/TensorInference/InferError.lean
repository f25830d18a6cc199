import TensorInference.Axis.Resolve
import TensorInference.Reduction.Basic
import TensorInference.Shape.Partial

/-!
# Why inference fails

The causes for which the output of an operator cannot be inferred.  Four of them pass on the error
of a part, with its text unchanged, and `cause?` is that text.
-/

namespace TensorInference

/-- A cause for which inference fails. -/
inductive InferError where
  /-- The element types of the inputs do not unify. -/
  | typeConflict (conflict : ElementType.Conflict)
  /-- The shapes of the inputs neither merge nor broadcast. -/
  | shapeConflict (conflict : PartialShape.Conflict)
  /-- An axis is out of range for the rank of the input. -/
  | axisRange (error : AxisRangeError)
  /-- Attributes were asked of a type that has none. -/
  | attributeQuery (error : ElementType.AttributeError)
  /-- The operator takes another number of inputs. -/
  | inputCount (expected actual : Nat)
  /-- The reduction does not take elements of this type. -/
  | unsupportedType (reduction : Reduction) (elementType : ElementType)
  /-- A mask does not have one entry for each axis. -/
  | maskLength (maskLength rank : Nat)
  deriving DecidableEq, Repr

namespace InferError

/-- The text of the part whose error is passed on. -/
def cause? : InferError → Option String
  | typeConflict conflict => some conflict.message
  | shapeConflict conflict => some conflict.message
  | axisRange error => some error.message
  | attributeQuery error => some error.message
  | inputCount .. | unsupportedType .. | maskLength .. => none

def message : InferError → String
  | typeConflict conflict => conflict.message
  | shapeConflict conflict => conflict.message
  | axisRange error => error.message
  | attributeQuery error => error.message
  | inputCount expected actual => s!"expected {expected} inputs but got {actual}"
  | unsupportedType reduction elementType =>
    reduction.name ++ " expects " ++ reduction.expectation ++
      " input but the element type is " ++ elementType.name
  | maskLength length rank =>
    s!"reversal mask has {length} entries but the input rank is {rank}"

end InferError

/-- Accepts the element types that a reduction supports. -/
def Reduction.check (r : Reduction) (t : ElementType) : Except InferError Unit :=
  if r.supports t then .ok () else .error (.unsupportedType r t)

end TensorInference
