import Mathlib.Algebra.BigOperators.Group.List.Basic
import TensorInference.Proofs.Axis.Split
import TensorInference.Tensor.Index

/-!
# Indices as numbers

Running numbers and indices are two names for the same elements: `digits` writes a number in the
mixed radix of the extents, `position` reads it back, and going through the numbers in order is going
through the indices in lexicographic order (`map_digits_range`).

Fixing the coordinates outside a set of axes leaves one index for every index over the axes in the
set, in the same order (`filter_all_eq_map_weave`).  Axes of extent one can be left out of an index
without moving it (`position_fill`), so an index whose coordinates along some axes are cleared stands
for all indices that agree with it along the others (`fill_zero_eq_iff`).
-/

namespace TensorInference.Index

/-- The number of indices is the product of the extents. -/
theorem count_eq_prod (dims : List Nat) : count dims = dims.prod := by
  induction dims with
  | nil => rfl
  | cons size dims ih => rw [count, List.prod_cons, ih]

@[simp] theorem position_nil (index : List Nat) : position [] index = 0 := by
  cases index <;> rfl

theorem length_of_inRange {dims index : List Nat} (h : InRange dims index) :
    index.length = dims.length := by
  induction dims generalizing index with
  | nil =>
    cases index with
    | nil => rfl
    | cons coordinate index => exact h.elim
  | cons size dims ih =>
    cases index with
    | nil => exact h.elim
    | cons coordinate index => rw [List.length_cons, List.length_cons, ih h.2]

/-- A shape with an index has no extent of zero. -/
theorem zero_notMem_of_inRange {dims index : List Nat} (h : InRange dims index) : 0 ∉ dims := by
  induction dims generalizing index with
  | nil => exact List.not_mem_nil
  | cons size dims ih =>
    cases index with
    | nil => exact h.elim
    | cons coordinate index =>
      have hsize := h.1
      have hrest := ih h.2
      simp only [List.mem_cons, not_or]
      exact ⟨by omega, hrest⟩

/-! ## Digits -/

/-- The coordinates of the index with a given number, the last axis running fastest. -/
def digits : List Nat → Nat → List Nat
  | [], _ => []
  | size :: sizes, number => number / count sizes % size :: digits sizes number

theorem digits_mul_add (sizes : List Nat) (rounds number : Nat) :
    digits sizes (rounds * count sizes + number) = digits sizes number := by
  induction sizes generalizing rounds with
  | nil => rfl
  | cons size sizes ih =>
    rw [count, ← Nat.mul_assoc, digits, digits, ih]
    congr 1
    rcases Nat.eq_zero_or_pos (count sizes) with hzero | hpos
    · rw [hzero, Nat.mul_zero, Nat.zero_add]
    · rw [Nat.add_comm, Nat.add_mul_div_right _ _ hpos, Nat.add_mul_mod_self_right]

theorem digits_position {dims index : List Nat} (h : InRange dims index) :
    digits dims (position dims index) = index := by
  induction dims generalizing index with
  | nil =>
    cases index with
    | nil => rfl
    | cons coordinate index => exact h.elim
  | cons size dims ih =>
    cases index with
    | nil => exact h.elim
    | cons coordinate index =>
      have hlt := position_lt_count h.2
      rw [position, digits, digits_mul_add, ih h.2, Nat.add_comm,
        Nat.add_mul_div_right _ _ (Nat.zero_lt_of_lt hlt), Nat.div_eq_of_lt hlt, Nat.zero_add,
        Nat.mod_eq_of_lt h.1]

theorem position_digits (dims : List Nat) (number : Nat) :
    position dims (digits dims number) = number % count dims := by
  induction dims with
  | nil => rw [count, Nat.mod_one, position_nil]
  | cons size dims ih =>
    rw [digits, position, ih, count, Nat.mul_comm size, Nat.mod_mul, Nat.mul_comm, Nat.add_comm]

theorem position_digits_of_lt {dims : List Nat} {number : Nat} (h : number < count dims) :
    position dims (digits dims number) = number := by
  rw [position_digits, Nat.mod_eq_of_lt h]

/-- Numbers in order are indices in lexicographic order. -/
theorem map_digits_range (sizes : List Nat) :
    (List.range (count sizes)).map (digits sizes) = all sizes := by
  induction sizes with
  | nil => rfl
  | cons size sizes ih =>
    rw [count, all]
    -- The first coordinate counts whole rounds through the others.
    have hrounds (rounds : Nat) (hle : rounds ≤ size) :
        (List.range (rounds * count sizes)).map (digits (size :: sizes)) =
          (List.range rounds).flatMap fun coordinate => (all sizes).map (coordinate :: ·) := by
      induction rounds with
      | zero => simp
      | succ rounds hrounds =>
        rw [Nat.succ_mul, List.range_add, List.map_append, hrounds (by omega), List.range_succ,
          List.flatMap_append, List.flatMap_singleton, ← ih, List.map_map, List.map_map]
        congr 1
        refine List.map_congr_left fun number hnumber => ?_
        have hlt := List.mem_range.1 hnumber
        rw [Function.comp_apply, Function.comp_apply, digits, digits_mul_add, Nat.add_comm,
          Nat.add_mul_div_right _ _ (Nat.zero_lt_of_lt hlt), Nat.div_eq_of_lt hlt, Nat.zero_add,
          Nat.mod_eq_of_lt (by omega)]
    exact hrounds size (Nat.le_refl size)

theorem inRange_digits {sizes : List Nat} {number : Nat} (h : number < count sizes) :
    InRange sizes (digits sizes number) := by
  rw [← mem_all_iff, ← map_digits_range]
  exact List.mem_map_of_mem (List.mem_range.2 h)

/-- Without extents of zero, any number has the digits of an index. -/
theorem inRange_digits_of_zero_notMem {sizes : List Nat} (h : 0 ∉ sizes) (number : Nat) :
    InRange sizes (digits sizes number) := by
  induction sizes with
  | nil => trivial
  | cons size sizes ih =>
    rw [List.mem_cons, not_or] at h
    exact ⟨Nat.mod_lt _ (by omega), ih h.2⟩

theorem getElem?_all {dims : List Nat} {number : Nat} (h : number < count dims) :
    (all dims)[number]? = some (digits dims number) := by
  rw [← map_digits_range, List.getElem?_map, List.getElem?_range h, Option.map_some]

/-! ## Some coordinates fixed -/

open Marks

theorem flatMap_range_eq_of_forall_ne {β : Type} {f : Nat → List β} {n i : Nat} (hi : i < n)
    (h : ∀ j, j ≠ i → f j = []) : (List.range n).flatMap f = f i := by
  induction n with
  | zero => omega
  | succ n ih =>
    rw [List.range_succ, List.flatMap_append, List.flatMap_singleton]
    rcases Nat.lt_or_eq_of_le (Nat.le_of_lt_succ hi) with hlt | rfl
    · rw [ih hlt, h n (by omega), List.append_nil]
    · have hnil : (List.range i).flatMap f = [] := by
        rw [List.flatMap_eq_nil_iff]
        intro j hj
        have hlt := List.mem_range.1 hj
        exact h j (by omega)
      rw [hnil, List.nil_append]

/-- The indices with given coordinates outside the marks are those over the marked axes, woven into
these coordinates, in the same order. -/
theorem filter_all_eq_map_weave {marks : List Bool} {dims free : List Nat}
    (hlen : dims.length = marks.length) (hfree : InRange (select false marks dims) free) :
    (all dims).filter (fun index => select false marks index = free) =
      (all (select true marks dims)).map (weave marks free) := by
  induction marks generalizing dims free with
  | nil =>
    obtain rfl := List.eq_nil_of_length_eq_zero hlen
    obtain rfl := List.eq_nil_of_length_eq_zero (length_of_inRange hfree)
    rfl
  | cons mark marks ih =>
    obtain ⟨size, dims, rfl⟩ := List.exists_cons_of_length_eq_add_one hlen
    rw [all, List.filter_flatMap]
    cases mark with
    | true =>
      -- The first coordinate runs on both sides.
      rw [select_false_true] at hfree
      rw [select_cons_self, all, List.map_flatMap]
      congr 1
      funext coordinate
      rw [List.filter_map, List.map_map]
      have hrest := congrArg (List.map (coordinate :: ·)) (ih (Nat.succ.inj hlen) hfree)
      rw [List.map_map] at hrest
      refine Eq.trans ?_ (hrest.trans ?_)
      · rfl
      · exact List.map_congr_left fun index _ => (weave_true marks free coordinate index).symm
    | false =>
      -- The first coordinate is fixed, so a single one of the rounds is left.
      rw [select_cons_self] at hfree
      cases free with
      | nil => exact hfree.elim
      | cons fixed free =>
        rw [select_true_false, flatMap_range_eq_of_forall_ne hfree.1]
        · rw [List.filter_map]
          have hrest := congrArg (List.map (fixed :: ·)) (ih (Nat.succ.inj hlen) hfree.2)
          rw [List.map_map] at hrest
          refine Eq.trans ?_ (hrest.trans ?_)
          · congr 1
            refine List.filter_congr fun index _ => ?_
            simp
          · rfl
        · intro coordinate hne
          rw [List.filter_eq_nil_iff]
          intro index hindex
          obtain ⟨rest, -, rfl⟩ := List.mem_map.1 hindex
          simp [hne]

theorem inRange_weave {marks : List Bool} {dims free marked : List Nat}
    (hlen : dims.length = marks.length) (hfree : InRange (select false marks dims) free)
    (hmarked : InRange (select true marks dims) marked) :
    InRange dims (weave marks free marked) := by
  have hmem : weave marks free marked ∈
      (all dims).filter fun index => select false marks index = free := by
    rw [filter_all_eq_map_weave hlen hfree]
    exact List.mem_map_of_mem (mem_all_iff.2 hmarked)
  exact mem_all_iff.1 (List.mem_of_mem_filter hmem)

/-- The coordinates along some of the axes are in the range of these axes. -/
theorem inRange_select (side : Bool) {marks : List Bool} {dims index : List Nat}
    (hlen : dims.length = marks.length) (h : InRange dims index) :
    InRange (select side marks dims) (select side marks index) := by
  induction marks generalizing dims index with
  | nil => trivial
  | cons mark marks ih =>
    obtain ⟨size, dims, rfl⟩ := List.exists_cons_of_length_eq_add_one hlen
    cases index with
    | nil => exact h.elim
    | cons coordinate index =>
      have hrest := ih (Nat.succ.inj hlen) h.2
      rw [select, select]
      split
      · exact ⟨h.1, hrest⟩
      · exact hrest

/-! ## Axes of extent one -/

theorem count_fill {marks : List Bool} {dims : List Nat} (hlen : dims.length = marks.length) :
    count (fill 1 marks dims) = count (select false marks dims) := by
  induction marks generalizing dims with
  | nil =>
    obtain rfl := List.eq_nil_of_length_eq_zero hlen
    rfl
  | cons mark marks ih =>
    obtain ⟨size, dims, rfl⟩ := List.exists_cons_of_length_eq_add_one hlen
    have hrest := ih (Nat.succ.inj hlen)
    cases mark with
    | true =>
      rw [select_false_true, ← hrest]
      exact Nat.one_mul _
    | false =>
      rw [select_cons_self, count, ← hrest]
      rfl

theorem inRange_select_of_fill {marks : List Bool} {dims index : List Nat}
    (hlen : dims.length = marks.length) (h : InRange (fill 1 marks dims) index) :
    InRange (select false marks dims) (select false marks index) := by
  induction marks generalizing dims index with
  | nil => trivial
  | cons mark marks ih =>
    obtain ⟨size, dims, rfl⟩ := List.exists_cons_of_length_eq_add_one hlen
    cases index with
    | nil => exact h.elim
    | cons coordinate index =>
      have hrest := ih (Nat.succ.inj hlen) h.2
      cases mark with
      | true => exact hrest
      | false =>
        rw [select_cons_self, select_cons_self]
        exact ⟨h.1, hrest⟩

/-- Coordinates along axes of extent one do not move an index. -/
theorem position_fill {marks : List Bool} {dims index : List Nat}
    (hlen : dims.length = marks.length) (h : InRange (fill 1 marks dims) index) :
    position (fill 1 marks dims) index =
      position (select false marks dims) (select false marks index) := by
  induction marks generalizing dims index with
  | nil => rfl
  | cons mark marks ih =>
    obtain ⟨size, dims, rfl⟩ := List.exists_cons_of_length_eq_add_one hlen
    cases index with
    | nil => exact h.elim
    | cons coordinate index =>
      have hrest := ih (Nat.succ.inj hlen) h.2
      cases mark with
      | true =>
        obtain rfl : coordinate = 0 := Nat.lt_one_iff.1 h.1
        rw [select_false_true, select_false_true, fill, position, Nat.zero_mul, Nat.zero_add, hrest]
      | false =>
        rw [select_cons_self, select_cons_self, fill, position, position, hrest,
          count_fill (Nat.succ.inj hlen)]

/-! ## Coordinates cleared -/

/-- Marked coordinates are cleared where the marked extents are one. -/
theorem inRange_fill {marks : List Bool} {dims index : List Nat}
    (hlen : dims.length = marks.length) (h : InRange dims index) :
    InRange (fill 1 marks dims) (fill 0 marks index) := by
  induction marks generalizing dims index with
  | nil => trivial
  | cons mark marks ih =>
    obtain ⟨size, dims, rfl⟩ := List.exists_cons_of_length_eq_add_one hlen
    cases index with
    | nil => exact h.elim
    | cons coordinate index =>
      refine ⟨?_, ih (Nat.succ.inj hlen) h.2⟩
      cases mark with
      | true => exact Nat.one_pos
      | false => exact h.1

/-- Clearing says as much about an index as the coordinates without a mark. -/
theorem fill_zero_eq_iff {marks : List Bool} {dims index index' : List Nat}
    (hlen : dims.length = marks.length) (h : InRange dims index)
    (h' : InRange (fill 1 marks dims) index') :
    fill 0 marks index = index' ↔ select false marks index = select false marks index' := by
  induction marks generalizing dims index index' with
  | nil =>
    obtain rfl := List.eq_nil_of_length_eq_zero (length_of_inRange h')
    exact iff_of_true (by cases index <;> rfl) (by cases index <;> rfl)
  | cons mark marks ih =>
    obtain ⟨size, dims, rfl⟩ := List.exists_cons_of_length_eq_add_one hlen
    cases index with
    | nil => exact h.elim
    | cons coordinate index =>
      cases index' with
      | nil => exact h'.elim
      | cons coordinate' index' =>
        have hrest := ih (Nat.succ.inj hlen) h.2 h'.2
        cases mark with
        | true =>
          obtain rfl : coordinate' = 0 := Nat.lt_one_iff.1 h'.1
          rw [select_false_true, select_false_true, fill, if_pos rfl, List.cons_inj_right, hrest]
        | false =>
          rw [select_cons_self, select_cons_self, fill, List.cons_eq_cons, List.cons_eq_cons, hrest]
          rfl

end TensorInference.Index
