import TensorInference.InferError

/-!
# Which axes to reverse

A reversal names its axes by a list of requests or marks them by a mask.  `resolve` makes a set of
either.  A mask needs one entry for each axis, which can be checked once the rank is known.
-/

namespace TensorInference

/-- The axes argument of a reversal. -/
inductive ReversedAxes where
  /-- Requests, where negative ones count back from the last axis. -/
  | index (requests : List Int)
  /-- A truth value for each axis. -/
  | mask (marks : List Bool)
  deriving DecidableEq, Repr

namespace ReversedAxes

/-- The name of the way in which the axes are given. -/
def modeName : ReversedAxes → String
  | index _ => "Index"
  | mask _ => "Mask"

/-- The axes to reverse at a rank, which may not be known. -/
def resolve (rank : Option Nat) : ReversedAxes → Except InferError AxisSet
  | index requests => (AxisSet.ofRequests rank requests).mapError .axisRange
  | mask marks =>
    match rank with
    | some rank =>
      if rank = marks.length then .ok (AxisSet.ofMask marks)
      else .error (.maskLength marks.length rank)
    | none => .ok (AxisSet.ofMask marks)

end ReversedAxes

end TensorInference
