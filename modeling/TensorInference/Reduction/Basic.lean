import TensorInference.ElementType

/-!
# Reductions

The six ways to combine the elements along an axis into one.  The logical ones take booleans, the
arithmetic ones take everything else.  A type that is not known yet passes both checks, since it
may still turn out right.
-/

namespace TensorInference

/-- A way to combine many elements into one. -/
inductive Reduction where
  | max
  | min
  | sum
  | prod
  | logicalAnd
  | logicalOr
  deriving DecidableEq, Repr

namespace Reduction

/-- The name of the operator that reduces in this way. -/
def name : Reduction → String
  | max => "ReduceMax"
  | min => "ReduceMin"
  | sum => "ReduceSum"
  | prod => "ReduceProd"
  | logicalAnd => "ReduceLogicalAnd"
  | logicalOr => "ReduceLogicalOr"

/-- Logical reductions combine truth values. -/
def isLogical : Reduction → Bool
  | logicalAnd | logicalOr => true
  | _ => false

/-- Whether elements of a type can be reduced in this way, as far as the type is known. -/
def supports (r : Reduction) (t : ElementType) : Bool :=
  if r.isLogical then t == .boolean || t == .dynamic else t != .boolean

/-- The kind of element that a reduction asks for. -/
def expectation (r : Reduction) : String :=
  if r.isLogical then "boolean" else "numeric"

end Reduction

end TensorInference
