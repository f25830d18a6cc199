import TensorInference.Word

/-!
# Row-major layout

The elements of a tensor are stored in one row, the last axis running fastest.  A `Span` says how
an axis is stepped through: its extent and its stride, the number of elements from one coordinate
to the next.

Strides are products of the later extents.  An extent of zero counts as one in them, and a stride
that would leave the word is held at the largest word.  Both happen for tensors without elements
only.

All other arithmetic on offsets is checked: a sum or a product that leaves the word, a difference
below zero and a zero divisor each end the computation with their `Fault`.

* `offsetOfIndex` takes an index to its offset, or to nothing when a coordinate is out of range.
* `offsetOfFlat` takes a running number over the index space of some axes to its offset.
* `offsetOfReversed` does the same with some of the axes running backwards from a start.
-/

namespace TensorInference

/-- The extent and the stride of an axis. -/
structure Span where
  size : Nat
  stride : Nat
  deriving DecidableEq, Repr

namespace Layout

/-- The number of elements that the given extents span, zero extents counted as one, and never
more than the largest word. -/
def reach : List Nat → Nat
  | [] => 1
  | size :: sizes => Word.mulCapped (reach sizes) (max size 1)

/-- The stride of every axis. -/
def strides : List Nat → List Nat
  | [] => []
  | _ :: sizes => reach sizes :: strides sizes

@[simp] theorem length_strides (sizes : List Nat) : (strides sizes).length = sizes.length := by
  induction sizes with
  | nil => rfl
  | cons size sizes ih => simp [strides, ih]

/-- The spans of all axes. -/
def spans (sizes : List Nat) : List Span :=
  List.zipWith Span.mk sizes (strides sizes)

@[simp] theorem spans_nil : spans [] = [] := rfl

@[simp] theorem spans_cons (size : Nat) (sizes : List Nat) :
    spans (size :: sizes) = ⟨size, reach sizes⟩ :: spans sizes := rfl

/-- A sum of offsets. -/
def add (a b : Nat) : Except Fault Nat :=
  Fault.overflow.unless (Word.add? a b)

/-- A number of strides. -/
def steps (coordinate stride : Nat) : Except Fault Nat :=
  Fault.overflow.unless (Word.mul? coordinate stride)

/-- A difference of offsets. -/
def subtract (a b : Nat) : Except Fault Nat :=
  Fault.underflow.unless (Word.sub? a b)

/-- The quotient and the remainder of a running number by an extent. -/
def splitBy (size index : Nat) : Except Fault (Nat × Nat) :=
  if size = 0 then .error .zeroDivisor else .ok (index / size, index % size)

/-- The offset of an index, added to `offset`.  There is none when the index has another number of
coordinates than there are axes, or when a coordinate is not below its extent. -/
def offsetOfIndex (offset : Nat) : List Span → List Nat → Except Fault (Option Nat)
  | [], [] => .ok (some offset)
  | span :: spans, coordinate :: coordinates => do
    if span.size ≤ coordinate then
      return none
    let step ← steps coordinate span.stride
    offsetOfIndex (← add offset step) spans coordinates
  | _, _ => .ok none

/-- Counts through the index space of `spans`, the last axis running fastest.  The result is the
offset of the index with number `index`, and what is left of the number after all axes. -/
def countThrough (index : Nat) : List Span → Except Fault (Nat × Nat)
  | [] => .ok (0, index)
  | span :: spans => do
    let (offset, index) ← countThrough index spans
    let (index, coordinate) ← splitBy span.size index
    let step ← steps coordinate span.stride
    return (← add offset step, index)

/-- The offset of the index with a given number in the index space of `spans`. -/
def offsetOfFlat (spans : List Span) (index : Nat) : Except Fault Nat :=
  (countThrough index spans).map Prod.fst

/-- Counts through an index space as `countThrough` does, but from the offset `start`, and
backwards along the spans that are marked. -/
def countReversed (start index : Nat) : List (Span × Bool) → Except Fault (Nat × Nat)
  | [] => .ok (start, index)
  | (span, backward) :: spans => do
    let (offset, index) ← countReversed start index spans
    let (index, coordinate) ← splitBy span.size index
    let step ← steps coordinate span.stride
    return (← if backward then subtract offset step else add offset step, index)

/-- The offset of the index with a given number, counted from `start` and backwards along the
marked spans. -/
def offsetOfReversed (spans : List (Span × Bool)) (start index : Nat) : Except Fault Nat :=
  (countReversed start index spans).map Prod.fst

/-- The offset at which all marked axes stand at their last coordinates and all others at their
first.  An axis without coordinates adds nothing. -/
def reversedStart (spans : List (Span × Bool)) : Except Fault Nat :=
  spans.foldlM (fun offset (span, backward) =>
    if backward ∧ 0 < span.size then do
      add offset (← steps (span.size - 1) span.stride)
    else .ok offset) 0

end Layout

end TensorInference
