import TensorInference.InferError
import TensorInference.Reduction.Combiner
import TensorInference.Shape.Basic
import TensorInference.Storage
import TensorInference.Tensor.Layout
import TensorInference.TensorInfo

/-!
# Tensors

A dense tensor: a shape and its elements in row-major order.  `ofData` accepts data whose length is
the number of elements of the shape.  That number is exact, so a shape with a zero extent takes
empty data however large its other extents are.

A kernel ends in one of three ways: with a tensor, with the error that inference has for the same
input, or with a `Fault` of its index arithmetic or of storage.  `Failure` is the sum of the last
two.
-/

namespace TensorInference

/-- A shape, and elements in row-major order. -/
structure Tensor (α : Type) where
  shape : Shape
  data : Array α
  deriving DecidableEq, Repr

/-- Why data do not make a tensor. -/
inductive DataError where
  /-- There are more or fewer data than elements. -/
  | lengthMismatch (shape : Shape) (length : Nat)
  /-- The number of elements leaves the word. -/
  | tooManyElements (shape : Shape)
  deriving DecidableEq, Repr

/-- The text of the error.  A mismatch states the running count of the shape, so it has no text
when that count leaves the word. -/
def DataError.message? : DataError → Option String
  | lengthMismatch shape length => do
    let count ← shape.runningCount?
    let dims := shape.text
    return s!"data length {length} does not match shape {dims} ({count} elements)"
  | tooManyElements shape =>
    some ("number of elements in shape " ++ shape.text ++ " is too large")

/-- Why a kernel gives no tensor. -/
inductive Failure where
  /-- Inference rejects the operator for this input. -/
  | rejected (error : InferError)
  /-- The computation itself cannot go on. -/
  | stopped (fault : Fault)
  deriving DecidableEq, Repr

namespace Tensor

variable {α : Type}

/-- The tensor of a shape and its data. -/
def ofData (shape : Shape) (data : Array α) : Except DataError (Tensor α) :=
  match shape.count? with
  | none => .error (.tooManyElements shape)
  | some count =>
    if count = data.size then .ok ⟨shape, data⟩
    else .error (.lengthMismatch shape data.size)

/-- Whether storage holds so many elements. -/
def fits (α : Type) [Element α] (count : Nat) : Bool :=
  (Element.elementType α).attributes?.all fun a => Storage.holds a.byteSize count

/-- The tensor with the same value everywhere, unless the running count leaves the word or storage
does not hold so many elements. -/
def full? [Element α] (shape : Shape) (value : α) : Option (Tensor α) :=
  (shape.runningCount?.filter (fits α)).map fun count => ⟨shape, Array.replicate count value⟩

/-- The tensor of a single value. -/
def ofScalar (value : α) : Tensor α := ⟨.scalar, #[value]⟩

/-- The number of axes. -/
def rank (t : Tensor α) : Nat :=
  t.shape.rank

/-- The number of elements. -/
def size (t : Tensor α) : Nat :=
  t.data.size

def isEmpty (t : Tensor α) : Bool :=
  t.data.isEmpty

/-- The stride of every axis. -/
def strides (t : Tensor α) : List Nat :=
  Layout.strides t.shape.dims

/-- The extent and the stride of every axis. -/
def spans (t : Tensor α) : List Span :=
  Layout.spans t.shape.dims

/-- The element at an index, if the index is in range. -/
def get? (t : Tensor α) (index : List Nat) : Except Fault (Option α) := do
  if index.length ≠ t.rank then
    return none
  let offset ← Layout.offsetOfIndex 0 t.spans index
  return offset.bind fun offset => t.data[offset]?

/-- The element at an offset. -/
def read (t : Tensor α) (offset : Nat) : Except Fault α :=
  Fault.outsideStorage.unless t.data[offset]?

/-- What inference knows of the tensor: everything. -/
def info [Element α] (t : Tensor α) : TensorInfo :=
  ⟨Element.elementType α, .ofShape t.shape⟩

end Tensor

end TensorInference
