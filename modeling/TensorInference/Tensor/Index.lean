import TensorInference.Tensor.Basic

/-!
# Indices

An index lists one coordinate for each axis.  `all` lists the indices of a shape in lexicographic
order, and `position` counts the indices before a given one without regard to machine words.  They
are the measure for the offsets of a layout.
-/

namespace TensorInference.Index

/-- Every coordinate is below its extent, and there are as many coordinates as axes. -/
def InRange : List Nat → List Nat → Prop
  | [], [] => True
  | size :: dims, coordinate :: index => coordinate < size ∧ InRange dims index
  | _, _ => False

instance decidableInRange : (dims index : List Nat) → Decidable (InRange dims index)
  | [], [] => inferInstanceAs (Decidable True)
  | size :: dims, coordinate :: index =>
    have := decidableInRange dims index
    inferInstanceAs (Decidable (coordinate < size ∧ InRange dims index))
  | [], _ :: _ => inferInstanceAs (Decidable False)
  | _ :: _, [] => inferInstanceAs (Decidable False)

/-- The exact number of indices of a shape. -/
def count : List Nat → Nat
  | [] => 1
  | size :: dims => size * count dims

/-- The indices of a shape, in lexicographic order. -/
def all : List Nat → List (List Nat)
  | [] => [[]]
  | size :: dims => (List.range size).flatMap fun coordinate => (all dims).map (coordinate :: ·)

/-- The number of indices before an index in lexicographic order. -/
def position : List Nat → List Nat → Nat
  | _ :: dims, coordinate :: index => coordinate * count dims + position dims index
  | _, _ => 0

/-- An index seen from the other end of the axes that are marked. -/
def flip : List Nat → List Bool → List Nat → List Nat
  | size :: dims, marked :: marks, coordinate :: index =>
    (if marked then size - 1 - coordinate else coordinate) :: flip dims marks index
  | _, _, index => index

theorem mem_all_iff {dims index : List Nat} : index ∈ all dims ↔ InRange dims index := by
  induction dims generalizing index with
  | nil => cases index <;> simp [all, InRange]
  | cons size dims ih =>
    cases index with
    | nil => simp [all, InRange]
    | cons coordinate index => simp [all, InRange, ih]

theorem length_all (dims : List Nat) : (all dims).length = count dims := by
  induction dims with
  | nil => rfl
  | cons size dims ih =>
    rw [all, count, List.length_flatMap, ← ih]
    induction size with
    | zero => simp
    | succ n hn =>
      rw [List.range_succ, List.map_append, List.sum_append, hn, Nat.succ_mul]
      simp

/-- No index stands at or past the end. -/
theorem position_lt_count {dims index : List Nat} (h : InRange dims index) :
    position dims index < count dims := by
  induction dims generalizing index with
  | nil => cases index <;> simp_all [InRange, position, count]
  | cons size dims ih =>
    cases index with
    | nil => exact h.elim
    | cons coordinate index =>
      have hlt := ih h.2
      calc position (size :: dims) (coordinate :: index)
          = coordinate * count dims + position dims index := rfl
        _ < coordinate * count dims + count dims := Nat.add_lt_add_left hlt _
        _ = (coordinate + 1) * count dims := (Nat.succ_mul _ _).symm
        _ ≤ size * count dims := Nat.mul_le_mul_right _ h.1

end TensorInference.Index
