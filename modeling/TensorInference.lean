import TensorInference.Document.Text
import TensorInference.Document.Value
import TensorInference.Graph.Call
import TensorInference.Reduction.Identity
import TensorInference.Setting
import TensorInference.Shape.Meaning
import TensorInference.Tensor.Index
import TensorInference.Tensor.Kernel
import TensorInference.Unification
import TensorInference.Proofs.Shape.Broadcast
import TensorInference.Proofs.Refinement.Shape
import TensorInference.Proofs.Shape.Merge
import TensorInference.Proofs.Operator.Inference
import TensorInference.Proofs.Graph.Step
import TensorInference.Proofs.Graph.Inferred
import TensorInference.Proofs.Refinement.Operator
import TensorInference.Proofs.Refinement.Graph
import TensorInference.Proofs.Axis.Resolve
import TensorInference.Proofs.Axis.Split
import TensorInference.Proofs.Tensor.Index
import TensorInference.Proofs.Word
import TensorInference.Proofs.Shape.Count
import TensorInference.Proofs.Tensor.Layout
import TensorInference.Proofs.Tensor.Element
import TensorInference.Proofs.Tensor.Construct
import TensorInference.Proofs.Tensor.Lane
import TensorInference.Proofs.Tensor.Reduce
import TensorInference.Proofs.Tensor.Mirror
import TensorInference.Proofs.Tensor.Backward
import TensorInference.Proofs.Tensor.Reverse
import TensorInference.Proofs.Graph.Ending
import TensorInference.Proofs.Graph.Lasting
import TensorInference.Proofs.Graph.Position
import TensorInference.Proofs.Graph.Report
import TensorInference.Proofs.Reduction.Laws
import TensorInference.Proofs.Tensor.Compose
import TensorInference.Proofs.Axis.Request
import TensorInference.Proofs.Unification
import TensorInference.Proofs.Shape.Unification
import TensorInference.Proofs.Reduction.Identity
import TensorInference.Proofs.Document.Number
import TensorInference.Proofs.Document.Quotation
import TensorInference.Proofs.Document.Token
import TensorInference.Proofs.Tensor.Empty
import TensorInference.Proofs.Document.Faithful
import TensorInference.Proofs.Document.Tensor
import TensorInference.Proofs.Document.Format
import TensorInference.Proofs.Document.Refusal
import TensorInference.Proofs.Tensor.Get
import TensorInference.Proofs.Reduction.Exact
import TensorInference.Proofs.Tensor.Exact
import TensorInference.Proofs.Tensor.Symmetry
import TensorInference.Proofs.Document.Entry
import TensorInference.Proofs.Document.Offence
import TensorInference.Proofs.Document.Verdict
import TensorInference.Proofs.Shape.Reduced
import TensorInference.Proofs.Tensor.RowMajor
import TensorInference.Proofs.Operator.Binary
import TensorInference.Proofs.Tensor.Spelling
import TensorInference.Proofs.Axis.Origin
import TensorInference.Proofs.Operator.Message
import TensorInference.Proofs.Reduction.Rounded
import TensorInference.Proofs.Tensor.Unit
import TensorInference.Proofs.Tensor.Partition
import TensorInference.Proofs.Tensor.RunningOffset
import TensorInference.Proofs.Axis.Capped
