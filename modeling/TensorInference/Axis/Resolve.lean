import TensorInference.Axis.Set

/-!
# Axis arguments

The axes of an operator are given as a list of integers.  A negative one counts back from the
last axis.  `AxisSet.ofRequests` checks the list against a rank and makes a set of it; the error
names every integer that is out of range, once and in ascending order.

While the rank is not known nothing can be checked, and the negative axes cannot be placed
either: the set then has just the other ones.

A rank counts as at most `2 ^ 63 - 1` here, since an axis is a signed word.
-/

namespace TensorInference

/-- The largest axis that a request can name. -/
def maxAxis : Nat := 0x7FFFFFFFFFFFFFFF

/-- The axis that a request means at a given rank, unless it is out of range. -/
def resolveAxis? (rank : Nat) (request : Int) : Option Nat :=
  let length : Int := (min rank maxAxis : Nat)
  if request < -length ∨ length ≤ request then none
  else if 0 ≤ request then some request.toNat
  else some (length + request).toNat

/-- Requested axes that are out of range. -/
structure AxisRangeError where
  /-- The offending requests, ascending and without repetitions. -/
  offending : List Int
  /-- The rank against which they were checked. -/
  rank : Nat
  deriving DecidableEq, Repr

def AxisRangeError.message (e : AxisRangeError) : String :=
  "Some of the provided axes (AxisSet" ++ Text.braced (e.offending.map toString) ++
    ") are out of bounds (input rank: " ++ toString e.rank ++ ")."

/-- The set of axes that a list of requests means at a rank, which may not be known. -/
def AxisSet.ofRequests (rank : Option Nat) (requests : List Int) : Except AxisRangeError AxisSet :=
  match rank with
  | none => .ok (ofList (requests.filterMap Int.toNat?))
  | some rank =>
    let offending := requests.filter fun request => (resolveAxis? rank request).isNone
    if offending.isEmpty then .ok (ofList (requests.filterMap (resolveAxis? rank)))
    else .error ⟨Ascending.ofList offending, rank⟩

end TensorInference
