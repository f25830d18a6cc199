import TensorInference.Tensor.Reduce
import TensorInference.Tensor.Reverse

/-!
# Kernels

The computations on tensors that stand behind operators, as values.  A kernel has an operator whose
inference decides whether it can run.

`compute` is the kernel on storage without bounds.  `run` first asks inference how many elements the
result has, and does not begin a computation whose result storage does not hold.

`chain` runs kernels in turn.  One that fails leaves the tensor to the next.
-/

namespace TensorInference

/-- A computation on a tensor. -/
inductive Kernel where
  | reduce (reduction : Reduction) (requests : List Int) (keepDims : Bool)
  | reverse (axes : ReversedAxes)
  deriving DecidableEq, Repr

namespace Kernel

/-- The operator that a kernel computes. -/
def operator : Kernel → Operator
  | reduce reduction requests keepDims => .reduce reduction requests keepDims
  | reverse axes => .reverse axes

variable {α : Type} [Element α]

/-- The result of a kernel, if storage holds every result. -/
def compute (k : Kernel) (t : Tensor α) : Except Failure (Tensor α) :=
  match k with
  | reduce reduction requests keepDims => t.reduce reduction requests keepDims
  | reverse axes => t.reverse axes

/-- The number of elements that a result has, when inference knows it and it stays in the word. -/
def resultSize? (k : Kernel) (t : Tensor α) : Option Nat := do
  let info ← (k.operator.infer [t.info]).toOption
  let shape ← info.shape.toShape?
  shape.count?

/-- The result of a kernel. -/
def run (k : Kernel) (t : Tensor α) : Except Failure (Tensor α) :=
  if (k.resultSize? t).all (Tensor.fits α) then k.compute t else .error (.stopped .exhausted)

/-- The results of kernels that run in turn, each on the last tensor that there is. -/
def chain (t : Tensor α) : List Kernel → List (Except Failure (Tensor α))
  | [] => []
  | k :: ks =>
    let outcome := k.run t
    outcome :: chain (outcome.toOption.getD t) ks

end Kernel

end TensorInference
