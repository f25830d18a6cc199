import TensorInference.Proofs.Shape.Count
import TensorInference.Proofs.Tensor.Layout
import TensorInference.Tensor.Basic

/-!
# Elements and their indices

The elements of a tensor in row-major order, each with its index, are the `entries` of the tensor.
Every statement about what a kernel does to the elements is made about entries; `mem_entries_iff`
ties them to reading an element by its index.

A tensor is `WellSized` when `ofData` accepts it.  In one that is `Addressable` the extents other than
zero do not outgrow the word either, which says more only when there are no elements: it keeps every
offset of an index within the word.

* `ofData_eq_ok_iff` --- which data make a tensor.
* `get?_eq` --- reading an element by its index.
-/

namespace TensorInference

namespace Tensor

variable {α : Type}

/-- There are as many elements as indices, and their number is a word. -/
structure WellSized (t : Tensor α) : Prop where
  size_eq : t.data.size = t.shape.dims.prod
  size_le : t.data.size ≤ Word.maxValue

theorem ofData_eq_ok_iff {shape : Shape} {data : Array α} {t : Tensor α} :
    ofData shape data = .ok t ↔ t = ⟨shape, data⟩ ∧ t.WellSized := by
  rw [ofData]
  cases hcount : shape.count? with
  | none =>
    have hnone (n : Nat) : ¬(shape.dims.prod = n ∧ n ≤ Word.maxValue) := by
      rw [← Shape.count?_eq_some_iff, hcount]
      exact nofun
    simp only [reduceCtorEq, false_iff]
    rintro ⟨rfl, ht⟩
    exact hnone data.size ⟨ht.size_eq.symm, ht.size_le⟩
  | some n =>
    obtain ⟨rfl, hle⟩ := Shape.count?_eq_some_iff.1 hcount
    by_cases hsize : shape.dims.prod = data.size
    · simp only [if_pos hsize, Except.ok.injEq]
      rw [hsize] at hle
      constructor
      · rintro rfl
        exact ⟨rfl, hsize.symm, hle⟩
      · rintro ⟨rfl, -⟩
        rfl
    · simp only [if_neg hsize, reduceCtorEq, false_iff]
      rintro ⟨rfl, ht⟩
      exact hsize ht.size_eq.symm

/-- There are as many elements as indices, and the extents other than zero do not outgrow the
word. -/
structure Addressable (t : Tensor α) : Prop where
  size_eq : t.data.size = t.shape.dims.prod
  solid_le : (t.shape.dims.filter (· ≠ 0)).prod ≤ Word.maxValue

theorem Addressable.prod_max_le {t : Tensor α} (ht : t.Addressable) :
    (t.shape.dims.map (max · 1)).prod ≤ Word.maxValue := by
  rw [← Word.prod_filter_ne_zero]
  exact ht.solid_le

/-- No index is farther from the start than a word holds. -/
theorem Addressable.farthest_le {t : Tensor α} (ht : t.Addressable) :
    Layout.farthest t.spans ≤ Word.maxValue :=
  Nat.le_trans (Nat.le_of_lt (Layout.farthest_spans_lt t.shape.dims)) ht.prod_max_le

theorem Addressable.wellSized {t : Tensor α} (ht : t.Addressable) : t.WellSized := by
  refine ⟨ht.size_eq, ?_⟩
  rw [ht.size_eq]
  exact Nat.le_trans (Word.prod_le_prod_max _) ht.prod_max_le

/-- A tensor with elements is addressable as soon as their number is right. -/
theorem WellSized.addressable {t : Tensor α} (ht : t.WellSized) (hzero : 0 ∉ t.shape.dims) :
    t.Addressable := by
  refine ⟨ht.size_eq, ?_⟩
  rw [Word.prod_filter_ne_zero, Word.prod_max_eq_prod hzero, ← ht.size_eq]
  exact ht.size_le

/-- There is one element for each index. -/
theorem count_dims {t : Tensor α} (hsize : t.data.size = t.shape.dims.prod) :
    Index.count t.shape.dims = t.data.size := by
  rw [Index.count_eq_prod, hsize]

theorem length_all_dims {t : Tensor α} (hsize : t.data.size = t.shape.dims.prod) :
    (Index.all t.shape.dims).length = t.data.toList.length := by
  rw [Index.length_all, count_dims hsize, Array.length_toList]

theorem WellSized.count_le {t : Tensor α} (ht : t.WellSized) :
    Index.count t.shape.dims ≤ Word.maxValue := by
  rw [count_dims ht.size_eq]
  exact ht.size_le

/-- Where all extents count, distances are positions. -/
theorem WellSized.distance_eq {t : Tensor α} (ht : t.WellSized) (hzero : 0 ∉ t.shape.dims)
    (index : List Nat) : Layout.distance t.spans index = Index.position t.shape.dims index :=
  Layout.distance_spans hzero ht.count_le index

@[simp] theorem length_spans (t : Tensor α) : t.spans.length = t.rank :=
  Layout.length_spans t.shape.dims

/-! ## Reading by an index -/

/-- An index in range reads the element at its position. -/
theorem get?_eq {t : Tensor α} {index : List Nat} (ht : t.WellSized)
    (hindex : Index.InRange t.shape.dims index) :
    t.get? index = .ok t.data[Index.position t.shape.dims index]? := by
  have hcount := ht.count_le
  have hdistance := ht.distance_eq (Index.zero_notMem_of_inRange hindex) index
  have hlt := Index.position_lt_count hindex
  have hrank : index.length = t.rank := Index.length_of_inRange hindex
  have hoffset : Layout.offsetOfIndex 0 t.spans index =
      .ok (some (0 + Layout.distance t.spans index)) := by
    refine Layout.offsetOfIndex_eq_ok ?_ ?_
    · rw [spans, Layout.map_size_spans]
      exact hindex
    · omega
  rw [get?, if_neg (by omega)]
  show (do return (← Layout.offsetOfIndex 0 t.spans index).bind fun offset => t.data[offset]?) = _
  rw [hoffset, Nat.zero_add, hdistance]
  rfl

/-- The element at the position of an index, or a default past the end. -/
def elementAt (t : Tensor α) (default : α) (index : List Nat) : α :=
  t.data.getD (Index.position t.shape.dims index) default

theorem elementAt_eq_getElem {t : Tensor α} {index : List Nat} (default : α)
    (h : Index.position t.shape.dims index < t.data.size) :
    t.elementAt default index = t.data[Index.position t.shape.dims index] := by
  rw [elementAt, Array.getD_eq_getD_getElem?, Array.getElem?_eq_getElem h, Option.getD_some]

theorem position_lt_size {t : Tensor α} (hsize : t.data.size = t.shape.dims.prod)
    {index : List Nat} (hindex : Index.InRange t.shape.dims index) :
    Index.position t.shape.dims index < t.data.size := by
  rw [← count_dims hsize]
  exact Index.position_lt_count hindex

theorem read_position {t : Tensor α} (default : α) (hsize : t.data.size = t.shape.dims.prod)
    {index : List Nat} (hindex : Index.InRange t.shape.dims index) :
    t.read (Index.position t.shape.dims index) = .ok (t.elementAt default index) := by
  have hlt := position_lt_size hsize hindex
  rw [read, elementAt_eq_getElem default hlt, Array.getElem?_eq_getElem hlt, Fault.unless_some]

/-! ## Entries -/

/-- The elements in row-major order, each with its index. -/
def entries (t : Tensor α) : List (List Nat × α) :=
  (Index.all t.shape.dims).zip t.data.toList

/-- Entry by entry, the element stands at the position of its index. -/
theorem entries_eq_map {t : Tensor α} (default : α) (hsize : t.data.size = t.shape.dims.prod) :
    t.entries = (Index.all t.shape.dims).map fun index => (index, t.elementAt default index) := by
  refine List.ext_getElem ?_ fun number hentry hmap => ?_
  · rw [entries, List.length_zip, List.length_map, length_all_dims hsize, Nat.min_self]
  · rw [List.length_map, Index.length_all] at hmap
    have hall := Index.getElem?_all hmap
    rw [List.getElem?_eq_getElem (by rwa [Index.length_all]), Option.some_inj] at hall
    have hlt : Index.position t.shape.dims (Index.digits t.shape.dims number) < t.data.size :=
      position_lt_size hsize (Index.inRange_digits hmap)
    simp only [entries, List.getElem_zip, List.getElem_map, hall, elementAt_eq_getElem default hlt,
      Index.position_digits, Nat.mod_eq_of_lt hmap, Array.getElem_toList]

/-- The data are the elements at all indices. -/
theorem toList_data_eq_map {t : Tensor α} (default : α)
    (hsize : t.data.size = t.shape.dims.prod) :
    t.data.toList = (Index.all t.shape.dims).map (t.elementAt default) := by
  have hlength := Nat.le_of_eq (length_all_dims hsize).symm
  calc t.data.toList
      = t.entries.map Prod.snd := (List.map_snd_zip hlength).symm
    _ = (Index.all t.shape.dims).map (t.elementAt default) := by
        rw [entries_eq_map default hsize, List.map_map]
        rfl

/-- The entry of an index is what is read by it. -/
theorem mem_entries_iff {t : Tensor α} (ht : t.WellSized) {index : List Nat}
    (hindex : Index.InRange t.shape.dims index) {a : α} :
    (index, a) ∈ t.entries ↔ t.get? index = .ok (some a) := by
  have hlt := position_lt_size ht.size_eq hindex
  rw [get?_eq ht hindex, Array.getElem?_eq_getElem hlt, entries_eq_map a ht.size_eq,
    List.mem_map, Except.ok.injEq, Option.some_inj]
  constructor
  · rintro ⟨index', -, hentry⟩
    obtain ⟨rfl, h⟩ := Prod.mk.inj hentry
    rwa [elementAt_eq_getElem a hlt] at h
  · intro h
    refine ⟨index, Index.mem_all_iff.2 hindex, ?_⟩
    rw [elementAt_eq_getElem a hlt, h]

end Tensor

end TensorInference
