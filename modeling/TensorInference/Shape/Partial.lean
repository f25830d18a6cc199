import TensorInference.Dimension
import TensorInference.Shape.Basic
import TensorInference.Storage

/-!
# Partial shapes

A partial shape is what is known of a shape before the program runs: nothing at all, not even the
number of axes, or the number of axes and some of the extents.

* `merge` keeps what either side knows and fails where they contradict each other.
* `broadcast` aligns two shapes at their last axes, pads the shorter one with ones in front, and
  stretches extents of one.  It knows nothing when either rank is unknown.

Both report the two whole shapes when they fail.
-/

namespace TensorInference

/-- What is known of a shape. -/
inductive PartialShape where
  /-- Not even the rank is known. -/
  | unranked
  /-- The rank is known, and perhaps some extents. -/
  | ranked (dims : List Dimension)
  deriving DecidableEq, Repr, Inhabited

namespace PartialShape

/-- Everything is known of a shape. -/
def ofShape (s : Shape) : PartialShape :=
  ranked (s.dims.map .known)

/-- The rank is known, and nothing else. -/
def ofRank (rank : Nat) : PartialShape :=
  ranked (List.replicate rank .unknown)

/-- The same, unless there are more dimensions than storage holds. -/
def ofRank? (rank : Nat) : Option PartialShape :=
  if Storage.holds Storage.entryWidth rank then some (ofRank rank) else none

/-- The dimensions, if the rank is known. -/
def dims? : PartialShape → Option (List Dimension)
  | unranked => none
  | ranked dims => some dims

/-- The number of axes, if it is known. -/
def rank? (s : PartialShape) : Option Nat :=
  s.dims?.map List.length

/-- A shape is static when its rank and all its extents are known. -/
def isStatic : PartialShape → Bool
  | unranked => false
  | ranked dims => dims.all Dimension.isKnown

/-- The shape, if all of it is known. -/
def toShape? : PartialShape → Option Shape
  | unranked => none
  | ranked dims => (dims.mapM Dimension.size?).map Shape.mk

/-- Dimensions between braces, or a question mark. -/
def text : PartialShape → String
  | unranked => "?"
  | ranked dims => Text.braced (dims.map Dimension.text)

/-- A rank, or a question mark. -/
def rankText (rank : Option Nat) : String :=
  (Dimension.ofOption rank).text

@[simp] theorem rank?_ranked (dims : List Dimension) : (ranked dims).rank? = some dims.length := rfl

@[simp] theorem rank?_unranked : unranked.rank? = none := rfl

@[simp] theorem rank?_ofShape (s : Shape) : (ofShape s).rank? = some s.rank := by
  simp [ofShape, Shape.rank]

/-- Two shapes that neither merge nor broadcast. -/
structure Conflict where
  left : PartialShape
  right : PartialShape
  deriving DecidableEq, Repr

def Conflict.message (c : Conflict) : String :=
  s!"shapes {c.left.text} and {c.right.text} are incompatible"

/-- The shape that both sides agree on. -/
def merge : PartialShape → PartialShape → Except Conflict PartialShape
  | unranked, b => .ok b
  | a, unranked => .ok a
  | ranked as, ranked bs =>
    match Dimension.zip? (fun a b => (a.merge b).toOption) as bs with
    | some dims => .ok (ranked dims)
    | none => .error ⟨ranked as, ranked bs⟩

/-- Two shapes are compatible when they merge. -/
def compatible (a b : PartialShape) : Bool :=
  (a.merge b).isOk

/-- Dimensions with ones in front, up to a given rank. -/
def padded (rank : Nat) (dims : List Dimension) : List Dimension :=
  List.replicate (rank - dims.length) (.known 1) ++ dims

/-- The shape to which two shapes stretch. -/
def broadcast : PartialShape → PartialShape → Except Conflict PartialShape
  | ranked as, ranked bs =>
    let rank := max as.length bs.length
    match Dimension.zip? Dimension.broadcast? (padded rank as) (padded rank bs) with
    | some dims => .ok (ranked dims)
    | none => .error ⟨ranked as, ranked bs⟩
  | _, _ => .ok unranked

end PartialShape

end TensorInference
