import TensorInference.Proofs.Reduction.Laws
import TensorInference.Reduction.Identity

/-!
# Two tables of identities

What a reduction over no elements gives is said twice: for every concrete element type by a table of
scalars, `Reduction.identity?`, and for every type that tensors store by the value that its combiner
starts from.  The two agree wherever there is a combiner (`identity?_eq_toScalar`).  They have to be
compared type by type, since for integers the second is made from the bounds of the type while the
first writes all of them out.
-/

namespace TensorInference

/-- The element types whose values tensors store: those without rounding, and two of the
floating-point types. -/
inductive StoredType where
  | exact (τ : ExactType)
  | f32
  | f64
  deriving DecidableEq, Repr

namespace StoredType

/-- The values of a type. -/
def Value : StoredType → Type
  | exact τ => τ.Value
  | f32 => Float32
  | f64 => Float

instance : (σ : StoredType) → Element σ.Value
  | exact τ => inferInstanceAs (Element τ.Value)
  | f32 => inferInstanceAs (Element Float32)
  | f64 => inferInstanceAs (Element Float)

/-- A combiner starts from the identity that the table lists. -/
theorem identity?_eq_toScalar {σ : StoredType} {r : Reduction} {c : Combiner σ.Value}
    (h : Element.combiner? r = some c) :
    r.identity? (Element.elementType σ.Value) = some (Element.toScalar c.identity) := by
  cases σ with
  | exact τ => cases τ <;> cases r <;> cases h <;> rfl
  | f32 => cases r <;> cases h <;> rfl
  | f64 => cases r <;> cases h <;> rfl

end StoredType

end TensorInference
