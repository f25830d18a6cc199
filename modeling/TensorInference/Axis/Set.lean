import TensorInference.Axis.Ascending
import TensorInference.Storage
import TensorInference.Text.Listing

/-!
# Axis sets

A finite set of axes, held as its strictly ascending list.  The order is part of the type, since
the search behind `contains` depends on it.

`collapse` is what a reduction does to the entries that belong to the axes of a tensor: an entry
on a chosen axis is dropped, or replaced where a replacement is given, and the others stay.
-/

namespace TensorInference

/-- A set of axes, in ascending order. -/
structure AxisSet where
  axes : List Nat
  ascending : axes.Pairwise (· < ·)
  deriving DecidableEq, Repr

namespace AxisSet

@[ext] theorem ext {s t : AxisSet} (h : s.axes = t.axes) : s = t := by
  cases s; cases t; simp_all

/-- The set without axes. -/
def empty : AxisSet := ⟨[], List.Pairwise.nil⟩

instance : Inhabited AxisSet := ⟨empty⟩

/-- The first `rank` axes. -/
def all (rank : Nat) : AxisSet :=
  ⟨List.range rank, List.pairwise_lt_range⟩

/-- The same, unless there are more axes than storage holds. -/
def all? (rank : Nat) : Option AxisSet :=
  if Storage.holds Storage.entryWidth rank then some (all rank) else none

/-- The positions of the true entries of a mask whose first entry stands at `start`. -/
def truePositions : Nat → List Bool → List Nat
  | _, [] => []
  | start, true :: mask => start :: truePositions (start + 1) mask
  | start, false :: mask => truePositions (start + 1) mask

theorem le_of_mem_truePositions {start axis : Nat} {mask : List Bool}
    (h : axis ∈ truePositions start mask) : start ≤ axis := by
  induction mask generalizing start with
  | nil => simp [truePositions] at h
  | cons b mask ih =>
    cases b with
    | false => exact Nat.le_of_succ_le (ih h)
    | true =>
      rcases List.mem_cons.1 h with rfl | h
      · exact Nat.le_refl _
      · exact Nat.le_of_succ_le (ih h)

theorem pairwise_truePositions (start : Nat) (mask : List Bool) :
    (truePositions start mask).Pairwise (· < ·) := by
  induction mask generalizing start with
  | nil => exact List.Pairwise.nil
  | cons b mask ih =>
    cases b with
    | false => exact ih (start + 1)
    | true => exact List.pairwise_cons.2 ⟨fun _ h => le_of_mem_truePositions h, ih (start + 1)⟩

/-- The positions that a mask marks. -/
def ofMask (mask : List Bool) : AxisSet :=
  ⟨truePositions 0 mask, pairwise_truePositions 0 mask⟩

/-- The axes of a list, in any order and repeated at will. -/
def ofList (axes : List Nat) : AxisSet :=
  ⟨Ascending.ofList axes, Ascending.pairwise_ofList axes⟩

/-- Whether an axis is in the set. -/
def contains (s : AxisSet) (axis : Nat) : Bool :=
  Ascending.has axis s.axes

@[simp] theorem contains_iff_mem {s : AxisSet} {axis : Nat} :
    s.contains axis = true ↔ axis ∈ s.axes :=
  Ascending.has_iff_mem s.ascending

/-- The number of axes in the set. -/
def size (s : AxisSet) : Nat :=
  s.axes.length

def isEmpty (s : AxisSet) : Bool :=
  s.axes.isEmpty

/-- Axes between braces, after the name of the type. -/
def text (s : AxisSet) : String :=
  "AxisSet" ++ Text.braced (s.axes.map toString)

/-- Entries that belong to the axes of a tensor, after the chosen axes are dropped, or given the
value `replacement` where there is one. -/
def collapse {β : Type} (chosen : AxisSet) (replacement : Option β) (entries : List β) : List β :=
  entries.zipIdx.filterMap fun (entry, axis) =>
    if chosen.contains axis then replacement else some entry

/-- The entries on the chosen axes. -/
def restrict {β : Type} (chosen : AxisSet) (entries : List β) : List β :=
  entries.zipIdx.filterMap fun (entry, axis) =>
    if chosen.contains axis then some entry else none

end AxisSet

end TensorInference
