import TensorInference.Proofs.Outcome
import TensorInference.Proofs.Tensor.Get

/-!
# The row-major order

In a tensor with elements every index in range leads to an offset of its own, every offset is led to,
and a later index leads to a later offset.  So going through the indices in lexicographic order is
going through the data.

The order of indices is that of lists of numbers.  An earlier coordinate outweighs all later ones
because these stay below their extents, and it is only for this that the indices have to be in range:
with an extent of one, two axes have the same stride.

* `Index.position_lt_position_iff` --- the order of positions.
* `Layout.strides_eq_map` --- the strides as products.
* `Tensor.leadsTo_iff` --- the offset that an index leads to.
* `Tensor.rowMajor_exact` --- all of it together.
-/

namespace TensorInference

namespace Index

/-- The higher digit decides between two numbers, and the lower one does if the higher are the
same. -/
theorem mul_add_lt_mul_add_iff {base high high' low low' : Nat} (hlow : low < base)
    (hlow' : low' < base) :
    high * base + low < high' * base + low' ↔ high < high' ∨ high = high' ∧ low < low' := by
  rcases Nat.lt_trichotomy high high' with hlt | rfl | hgt
  · have hle : (high + 1) * base ≤ high' * base := Nat.mul_le_mul_right base hlt
    rw [Nat.succ_mul] at hle
    exact iff_of_true (by omega) (.inl hlt)
  · omega
  · have hle : (high' + 1) * base ≤ high * base := Nat.mul_le_mul_right base hgt
    rw [Nat.succ_mul] at hle
    exact iff_of_false (by omega) (by omega)

/-- Positions are in the order of the indices. -/
theorem position_lt_position_iff {dims index index' : List Nat} (h : InRange dims index)
    (h' : InRange dims index') : position dims index < position dims index' ↔ index < index' := by
  induction dims generalizing index index' with
  | nil =>
    obtain rfl := List.eq_nil_of_length_eq_zero (length_of_inRange h)
    obtain rfl := List.eq_nil_of_length_eq_zero (length_of_inRange h')
    exact iff_of_false (Nat.lt_irrefl _) (List.not_lt_nil _)
  | cons size dims ih =>
    cases index with
    | nil => exact h.elim
    | cons coordinate index =>
      cases index' with
      | nil => exact h'.elim
      | cons coordinate' index' =>
        rw [position, position, List.cons_lt_cons_iff, ← ih h.2 h'.2]
        exact mul_add_lt_mul_add_iff (position_lt_count h.2) (position_lt_count h'.2)

/-- Indices are listed in their order, each of them once. -/
theorem pairwise_lt_all (dims : List Nat) : (all dims).Pairwise (· < ·) := by
  rw [← map_digits_range, List.pairwise_map]
  refine List.pairwise_lt_range.imp_of_mem fun hnumber hnumber' hlt => ?_
  rw [List.mem_range] at hnumber hnumber'
  rw [← position_lt_position_iff (inRange_digits hnumber) (inRange_digits hnumber'),
    position_digits, position_digits, Nat.mod_eq_of_lt hnumber, Nat.mod_eq_of_lt hnumber']
  exact hlt

end Index

namespace Layout

/-- In a tensor with elements, a stride is the product of the later extents. -/
theorem strides_eq_map {dims : List Nat} (hzero : 0 ∉ dims)
    (hcount : Index.count dims ≤ Word.maxValue) :
    strides dims = (List.range dims.length).map fun axis => (dims.drop (axis + 1)).prod := by
  induction dims with
  | nil => rfl
  | cons size dims ih =>
    rw [List.mem_cons, not_or] at hzero
    have hle : Index.count dims ≤ Word.maxValue :=
      Nat.le_trans (Nat.le_mul_of_pos_left _ (by omega)) hcount
    rw [strides, ih hzero.2 hle, reach_eq_prod hzero.2 hle, List.length_cons,
      List.range_succ_eq_map, List.map_cons, List.map_map]
    rfl

end Layout

namespace Tensor

variable {α : Type}

/-- Reading by an index goes to this offset. -/
def LeadsTo (t : Tensor α) (index : List Nat) (offset : Nat) : Prop :=
  Layout.offsetOfIndex 0 t.spans index = .ok (some offset)

/-- A tensor with elements has no extent of zero. -/
theorem WellSized.zero_notMem {t : Tensor α} (ht : t.WellSized) (hsize : 0 < t.size) :
    0 ∉ t.shape.dims := by
  intro hzero
  have hprod : t.shape.dims.prod = 0 := List.prod_eq_zero_iff_exists_zero_nat.2 ⟨0, hzero, rfl⟩
  exact Nat.ne_of_gt hsize (ht.size_eq.trans hprod)

/-- An index leads to its position if it is in range, and otherwise nowhere. -/
theorem leadsTo_iff {t : Tensor α} (ht : t.WellSized) (hsize : 0 < t.size) {index : List Nat}
    {offset : Nat} :
    t.LeadsTo index offset ↔
      Index.InRange t.shape.dims index ∧ Index.position t.shape.dims index = offset := by
  have hzero := ht.zero_notMem hsize
  have hwalked := (ht.addressable hzero).indexable.walked_le index
  have hdistance := ht.distance_eq hzero index
  have hmap : t.spans.map Span.size = t.shape.dims := Layout.map_size_spans _
  rw [LeadsTo, Layout.offsetOfIndex_eq (Nat.zero_le _), if_neg (by omega), hmap, hdistance,
    Nat.zero_add]
  split
  · next hindex => simp [hindex]
  · next hindex => simp [hindex]

/-- Every offset is led to by one index. -/
theorem existsUnique_leadsTo {t : Tensor α} (ht : t.WellSized) {offset : Nat}
    (hoffset : offset < t.size) : ∃! index, t.LeadsTo index offset := by
  have hcount : offset < Index.count t.shape.dims := by
    rw [count_dims ht.size_eq]
    exact hoffset
  have hsize := Nat.zero_lt_of_lt hoffset
  refine ⟨Index.digits t.shape.dims offset, (leadsTo_iff ht hsize).2 ⟨?_, ?_⟩, ?_⟩
  · exact Index.inRange_digits hcount
  · rw [Index.position_digits, Nat.mod_eq_of_lt hcount]
  · intro index h
    obtain ⟨hindex, rfl⟩ := (leadsTo_iff ht hsize).1 h
    exact (Index.digits_position hindex).symm

/-- Reading by all indices in their order lists the data. -/
theorem mapM_get?_all {t : Tensor α} (ht : t.WellSized) (hsize : 0 < t.size) :
    (Index.all t.shape.dims).mapM t.get? = .ok (t.data.toList.map some) := by
  have hread : ∀ index ∈ Index.all t.shape.dims,
      t.get? index = .ok (some (t.elementAt t.data[0] index)) := by
    intro index hindex
    rw [Index.mem_all_iff] at hindex
    have hlt := position_lt_size ht.size_eq hindex
    rw [get?_eq ht hindex, elementAt_eq_getElem _ hlt, Array.getElem?_eq_getElem hlt]
  rw [Outcome.mapM_eq_ok hread, toList_data_eq_map t.data[0] ht.size_eq, List.map_map]
  rfl

/-- **The row-major layout is one to one and keeps the order.**  In a tensor with elements a stride
is the product of the later extents.  The indices in range, and no others, lead to an offset, and the
element there is what is read.  Every offset within the data is led to by one index, and a later index
leads to a later offset.  All indices in range, listed in increasing order, read all of the data, in
the order in which they are stored. -/
theorem rowMajor_exact {t : Tensor α} (ht : t.WellSized) (hsize : 0 < t.size) :
    t.strides = (List.range t.rank).map (fun axis => (t.shape.dims.drop (axis + 1)).prod) ∧
      (∀ index, Index.InRange t.shape.dims index ↔ ∃ offset, t.LeadsTo index offset) ∧
      (∀ index offset, t.LeadsTo index offset →
        offset < t.size ∧ t.get? index = .ok t.data[offset]?) ∧
      (∀ offset, offset < t.size → ∃! index, t.LeadsTo index offset) ∧
      (∀ index index' offset offset', t.LeadsTo index offset → t.LeadsTo index' offset' →
        (index < index' ↔ offset < offset')) ∧
      (∀ index, index ∈ Index.all t.shape.dims ↔ Index.InRange t.shape.dims index) ∧
      (Index.all t.shape.dims).Pairwise (· < ·) ∧
      (Index.all t.shape.dims).mapM t.get? = .ok (t.data.toList.map some) := by
  have hleads {index : List Nat} {offset : Nat} : t.LeadsTo index offset ↔
      Index.InRange t.shape.dims index ∧ Index.position t.shape.dims index = offset :=
    leadsTo_iff ht hsize
  refine ⟨Layout.strides_eq_map (ht.zero_notMem hsize) ht.count_le, ?_, ?_,
    fun offset hoffset => existsUnique_leadsTo ht hoffset, ?_, fun index => Index.mem_all_iff,
    Index.pairwise_lt_all _, mapM_get?_all ht hsize⟩
  · intro index
    constructor
    · intro hindex
      exact ⟨_, hleads.2 ⟨hindex, rfl⟩⟩
    · rintro ⟨offset, h⟩
      exact (hleads.1 h).1
  · intro index offset h
    obtain ⟨hindex, rfl⟩ := hleads.1 h
    exact ⟨position_lt_size ht.size_eq hindex, get?_eq ht hindex⟩
  · intro index index' offset offset' h h'
    obtain ⟨hindex, rfl⟩ := hleads.1 h
    obtain ⟨hindex', rfl⟩ := hleads.1 h'
    exact (Index.position_lt_position_iff hindex hindex').symm

/-- With extents of `2`, `1` and `3` the first two axes have the same stride, but there is only one
way to the fifth element. -/
theorem rowMajor_exact_unit_extent :
    (⟨⟨[2, 1, 3]⟩, #[1, 2, 3, 4, 5, 6]⟩ : Tensor Int32).strides = [3, 3, 1] ∧
      (⟨⟨[2, 1, 3]⟩, #[1, 2, 3, 4, 5, 6]⟩ : Tensor Int32).LeadsTo [1, 0, 1] 4 ∧
      ∃! index, (⟨⟨[2, 1, 3]⟩, #[1, 2, 3, 4, 5, 6]⟩ : Tensor Int32).LeadsTo index 4 := by
  have ht : (⟨⟨[2, 1, 3]⟩, #[1, 2, 3, 4, 5, 6]⟩ : Tensor Int32).WellSized := ⟨rfl, by decide⟩
  obtain ⟨hstrides, -, -, hunique, -⟩ := rowMajor_exact ht (by decide)
  exact ⟨hstrides, rfl, hunique 4 (by decide)⟩

end Tensor

end TensorInference
