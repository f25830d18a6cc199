import TensorInference.TensorInfo

/-!
# What partial shapes mean

A partial shape stands for the shapes that it describes: those with its rank and with its known
extents.  `Shape.broadcast?` is broadcasting of shapes all of whose extents are known, by which
broadcasting of partial shapes is judged.

`Refines` compares what is known: a finer dimension, shape or info agrees with all that the coarser
one says and may say more.
-/

namespace TensorInference

namespace Dimension

/-- A known dimension describes its size, an unknown one describes every size. -/
def Describes : Dimension → Nat → Prop
  | known size, n => size = n
  | unknown, _ => True

instance : (d : Dimension) → (n : Nat) → Decidable (d.Describes n)
  | known size, n => inferInstanceAs (Decidable (size = n))
  | unknown, _ => inferInstanceAs (Decidable True)

/-- Dimensions describe as many sizes, each its own. -/
def DescribesAll : List Dimension → List Nat → Prop
  | [], [] => True
  | d :: ds, n :: ns => d.Describes n ∧ DescribesAll ds ns
  | _, _ => False

instance decidableDescribesAll : (ds : List Dimension) → (ns : List Nat) →
    Decidable (DescribesAll ds ns)
  | [], [] => inferInstanceAs (Decidable True)
  | d :: ds, n :: ns =>
    have := decidableDescribesAll ds ns
    inferInstanceAs (Decidable (d.Describes n ∧ DescribesAll ds ns))
  | [], _ :: _ => inferInstanceAs (Decidable False)
  | _ :: _, [] => inferInstanceAs (Decidable False)

/-- The finer dimension is the coarser one, or the coarser one is unknown. -/
def Refines (fine coarse : Dimension) : Prop :=
  coarse = unknown ∨ fine = coarse

/-- Dimensions that refine as many others, each its own. -/
def RefinesAll : List Dimension → List Dimension → Prop
  | [], [] => True
  | fine :: fines, coarse :: coarses => fine.Refines coarse ∧ RefinesAll fines coarses
  | _, _ => False

end Dimension

/-- The shapes that a partial shape stands for. -/
def PartialShape.Describes : PartialShape → Shape → Prop
  | unranked, _ => True
  | ranked dims, s => Dimension.DescribesAll dims s.dims

instance : (p : PartialShape) → (s : Shape) → Decidable (p.Describes s)
  | .unranked, _ => inferInstanceAs (Decidable True)
  | .ranked dims, s => inferInstanceAs (Decidable (Dimension.DescribesAll dims s.dims))

/-- The finer shape agrees with all that the coarser one says. -/
def PartialShape.Refines : PartialShape → PartialShape → Prop
  | _, unranked => True
  | ranked fine, ranked coarse => Dimension.RefinesAll fine coarse
  | unranked, ranked _ => False

/-- The finer info agrees with all that the coarser one says. -/
def TensorInfo.Refines (fine coarse : TensorInfo) : Prop :=
  (coarse.elementType = .dynamic ∨ fine.elementType = coarse.elementType) ∧
    fine.shape.Refines coarse.shape

namespace Shape

/-- The extent to which two aligned extents stretch: they are equal, or one of them is one. -/
def stretch? (a b : Nat) : Option Nat :=
  if a = b then some a
  else if a = 1 then some b
  else if b = 1 then some a
  else none

/-- Stretches extents of two lists of the same length to each other. -/
def stretchAll? : List Nat → List Nat → Option (List Nat)
  | [], [] => some []
  | a :: as, b :: bs => do
    let n ← stretch? a b
    let ns ← stretchAll? as bs
    return n :: ns
  | _, _ => none

/-- Extents with ones in front, up to a given rank. -/
def padded (rank : Nat) (dims : List Nat) : List Nat :=
  List.replicate (rank - dims.length) 1 ++ dims

/-- The shape to which two shapes stretch when their last axes are aligned. -/
def broadcast? (a b : Shape) : Option Shape :=
  let rank := max a.rank b.rank
  (stretchAll? (padded rank a.dims) (padded rank b.dims)).map Shape.mk

end Shape

end TensorInference
