import TensorInference.Word
import TensorInference.Text.Listing

/-!
# Shapes

A shape lists the extents of a tensor, outermost axis first.  The empty list is the shape of a
scalar.

There are two ways to count the elements.  `count?` is exact: it knows that one zero extent makes
the tensor empty, however large the others are.  `runningCount?` multiplies from the left and has
no answer once a partial product leaves the word, even when a zero follows.
-/

namespace TensorInference

/-- The extents of a tensor, outermost axis first. -/
structure Shape where
  dims : List Nat
  deriving DecidableEq, Repr, Inhabited

namespace Shape

/-- The shape of a scalar. -/
def scalar : Shape := ⟨[]⟩

/-- The number of axes. -/
def rank (s : Shape) : Nat :=
  s.dims.length

/-- Extents between braces. -/
def text (s : Shape) : String :=
  Text.braced (s.dims.map toString)

/-- The number of elements, unless it leaves the word. -/
def count? (s : Shape) : Option Nat :=
  if 0 ∈ s.dims then some 0 else Word.product? s.dims

/-- The number of elements, counted from the left, unless a partial product leaves the word. -/
def runningCount? (s : Shape) : Option Nat :=
  Word.product? s.dims

end Shape

end TensorInference
